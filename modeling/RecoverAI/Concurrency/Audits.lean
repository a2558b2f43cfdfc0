import RecoverAI.Concurrency.StaleClaims

/-!
# Audit events under interleaving

An audit event that claims a transition is written once. `Marked` is the pattern: a kind of event
leaves a mark on its entity that nothing removes, and the event is written only where the mark is
missing. Finalizations find their action `EXECUTING` because only its claimer ends that. Recoveries
are the exception: two captured events may both read the case before either writes it.
-/
namespace RecoverAI

open Store

/-- Events of one kind mark their entity, and no entity has two of them. -/
structure Marked (kind : String → Prop) (mark : Db → String → Prop) (d : Db) : Prop where
  marks : ∀ x ∈ d.audits, kind x.eventType → mark d x.entityId
  one : ∀ x ∈ d.audits, ∀ y ∈ d.audits, kind x.eventType → kind y.eventType →
    x.entityId = y.entityId → x = y

theorem Marked.step {kind : String → Prop} {mark : Db → String → Prop} {d d' : Db}
    (h : Marked kind mark d) {xs : List AuditEvent} (audits : d'.audits = d.audits.putAll xs)
    (single : ∀ x ∈ xs, xs = [x]) (keeps : ∀ e, mark d e → mark d' e)
    (fresh : ∀ x ∈ xs, kind x.eventType → ¬ mark d x.entityId ∧ mark d' x.entityId) :
    Marked kind mark d' where
  marks x hx type := by
    rcases Table.mem_or_of_mem_putAll (audits ▸ hx) with new | old
    · exact (fresh x new type).2
    · exact keeps _ (h.marks x old type)
  one x hx y hy tx ty same := by
    rcases Table.mem_or_of_mem_putAll (audits ▸ hx) with newX | oldX <;>
      rcases Table.mem_or_of_mem_putAll (audits ▸ hy) with newY | oldY
    · exact (List.mem_singleton.1 (single x newX ▸ newY)).symm
    · exact absurd (same ▸ h.marks y oldY ty) (fresh x newX tx).1
    · exact absurd (same ▸ h.marks x oldX tx) (fresh y newY ty).1
    · exact h.one x oldX y oldY tx ty same

/-! ## Marks -/

inductive AuditKind where
  | eligible | decision | recovered | claimed | concluded
deriving DecidableEq

/-- The transition an event type claims. -/
def auditKind (eventType : String) : Option AuditKind :=
  if eventType = "recovery_case.eligible" then some .eligible
  else if eventType = "recovery_case.decision" then some .decision
  else if eventType = "recovery_case.recovered" then some .recovered
  else if eventType = "recovery_action.claimed" then some .claimed
  else if eventType ∈ ["recovery_action.cancelled", "recovery_action.executed",
    "recovery_action.failed"] then
    some .concluded
  else none

def concludedStatuses : List RecoveryActionStatus := [.cancelled, .executed, .failed]

/-- The case has a status in `p`. -/
def Db.HasCase (d : Db) (p : RecoveryCaseStatus → Prop) (entity : String) : Prop :=
  ∃ c ∈ d.cases, c.id.str = entity ∧ p c.status

/-- The action has a status in `p`. -/
def Db.HasAction (d : Db) (p : RecoveryActionStatus → Prop) (entity : String) : Prop :=
  ∃ a ∈ d.actions, a.id.str = entity ∧ p a.status

/-- What a transition leaves behind for good. -/
def AuditKind.Mark (kind : AuditKind) (d : Db) (entity : String) : Prop :=
  match kind with
  | .eligible => d.HasCase (fun _ => True) entity
  | .decision => d.HasCase (· ≠ .eligible) entity
  | .recovered => d.HasCase (· = .recovered) entity
  | .claimed => d.HasAction (· ≠ .approved) entity
  | .concluded => d.HasAction (· ∈ concludedStatuses) entity

theorem hasCase_iff {d : Db} {c : RecoveryCase} {id : Uuid} {p : RecoveryCaseStatus → Prop}
    (base : d.cases.get id = some c) : d.HasCase p id.str ↔ p c.status := by
  obtain ⟨mem, hid⟩ := Table.get_eq_some.1 base
  constructor
  · rintro ⟨b, hb, same, status⟩
    exact Table.eq_of_key hb mem ((Uuid.str_injective same).trans hid.symm) ▸ status
  · exact fun status => ⟨c, mem, congrArg Uuid.str hid, status⟩

theorem hasAction_iff {d : Db} {a : RecoveryAction} {id : Uuid} {p : RecoveryActionStatus → Prop}
    (base : d.actions.get id = some a) : d.HasAction p id.str ↔ p a.status := by
  obtain ⟨mem, hid⟩ := Table.get_eq_some.1 base
  constructor
  · rintro ⟨b, hb, same, status⟩
    exact Table.eq_of_key hb mem ((Uuid.str_injective same).trans hid.symm) ▸ status
  · exact fun status => ⟨a, mem, congrArg Uuid.str hid, status⟩

section

variable [PyLib] {settings : Settings} {d : Db} {allows : Db → Stmt → Bool} {pid : Nat}
  {log log₀ : Ledger} {ws us : List Row} {claim : Claim} {p q : Process}

variable {T : Type} {db : T → Db} {R : List Row → T → T → Prop} {grants : Db → Stmt → Prop}
  {carried : Option Claim} {t : T} {d' : Db}

/-- What a commit makes of an action: it concludes it, claims it or creates it. -/
theorem Work.action_rows (h : Work db R grants carried d' t) :
    ∃ cs as os xs, (db t).Changes d' cs as os xs ∧
    ∀ a' ∈ as, (db t).actions.get a'.id = none ∨
      ∃ a, (db t).actions.get a'.id = some a ∧
        (a.status = .approved ∧ a'.status = .executing ∨ a'.status ∈ concludedStatuses ∧
          (a.status ≠ .executing ∨ ∃ claim, carried = some claim ∧ a'.id = claim.actionId)) := by
  have single : ∀ {a a' : RecoveryAction} {id : Uuid}, (db t).actions.get id = some a →
      a'.id = a.id →
      (a.status = .approved ∧ a'.status = .executing ∨ a'.status ∈ concludedStatuses ∧
        (a.status ≠ .executing ∨ ∃ claim, carried = some claim ∧ a'.id = claim.actionId)) →
      ∀ b ∈ [a'], (db t).actions.get b.id = none ∨ ∃ a, (db t).actions.get b.id = some a ∧
        (a.status = .approved ∧ b.status = .executing ∨ b.status ∈ concludedStatuses ∧
          (a.status ≠ .executing ∨ ∃ claim, carried = some claim ∧ b.id = claim.actionId)) := by
    intro a a' id base same status b hb
    obtain rfl := List.mem_singleton.1 hb
    exact .inr ⟨a, by rw [same]; exact Table.get_of_mem (Table.get_eq_some.1 base).1, status⟩
  cases h with
  | quiet changes | noted _ _ _ _ changes | blocked _ _ changes | created _ _ _ _ changes
  | activated _ _ _ _ _ changes => exact ⟨_, _, _, _, changes, by simp⟩
  | decided _ action _ _ changes =>
    exact ⟨_, _, _, _, changes, fun a ha => .inl (List.mem_singleton.1 ha ▸ action.action)⟩
  | cancelled held _ _ changes =>
    refine ⟨_, _, _, _, changes, single held.base rfl (.inr ⟨by simp [concludedStatuses], .inl ?_⟩)⟩
    rw [held.approved]
    decide
  | claimed held _ _ changes =>
    exact ⟨_, _, _, _, changes, single held.base rfl (.inl ⟨held.approved, rfl⟩)⟩
  | executed carries _ executing _ base _ changes =>
    refine ⟨_, _, _, _, changes,
      single base rfl (.inr ⟨?_, .inr ⟨_, carries, (Table.get_eq_some.1 base).2⟩⟩)⟩
    simp [Db.patchAction, RecoveryAction.succeeded, Db.changed, executing, concludedStatuses]
  | failed carries _ executing base _ changes =>
    refine ⟨_, _, _, _, changes,
      single base rfl (.inr ⟨?_, .inr ⟨_, carries, (Table.get_eq_some.1 base).2⟩⟩)⟩
    simp [Db.patchAction, RecoveryAction.unsuccessful, Db.changed, executing, concludedStatuses]
  | recovered _ _ recovers _ _ changes =>
    refine ⟨_, _, _, _, changes, fun b hb => ?_⟩
    obtain ⟨a, ha, rfl⟩ := List.mem_map.1 hb
    obtain ⟨_, _, _, open_, -⟩ := recovers.read
    have waits : Db.cancellable a := by
      rw [open_] at ha
      simpa using And.right (by simpa using (Table.mem_filter.1 ha).2)
    refine .inr ⟨a, recovers.actions a ha,
      .inr ⟨by simp [Db.cancelled, concludedStatuses], .inl ?_⟩⟩
    rintro executing
    simp [Db.cancellable, executing] at waits

/-- No mark is removed. -/
theorem Work.keeps_mark (h : Work db R grants carried d' t) (past : Past db R t)
    (grows : (db t).Grows d') (kind : AuditKind) (entity : String)
    (marked : kind.Mark (db t) entity) : kind.Mark d' entity := by
  have ofCase : ∀ {p : RecoveryCaseStatus → Prop}, (db t).HasCase p entity →
      (∀ c ∈ (db t).cases, ∀ c' ∈ d'.cases, c'.id = c.id → p c.status → p c'.status) →
      d'.HasCase p entity := by
    rintro p ⟨c, hc, id, status⟩ keeps
    obtain ⟨c', hc', same⟩ := grows.cases c hc
    exact ⟨c', hc', (congrArg Uuid.str same.id).trans id, keeps c hc c' hc' same.id status⟩
  have ofAction : ∀ {p : RecoveryActionStatus → Prop}, (db t).HasAction p entity →
      (∀ a ∈ (db t).actions, ∀ a' ∈ d'.actions, a'.id = a.id → p a.status → p a'.status) →
      d'.HasAction p entity := by
    rintro p ⟨a, ha, id, status⟩ keeps
    obtain ⟨a', ha', same⟩ := grows.actions a ha
    exact ⟨a', ha', (congrArg Uuid.str same.id).trans id, keeps a ha a' ha' same.id status⟩
  obtain ⟨_, _, _, _, changes, rows⟩ := h.action_rows
  -- A written action row replaces one that is approved, or that its commit concludes.
  have rows' : ∀ a ∈ (db t).actions, ∀ a' ∈ d'.actions, a'.id = a.id → a' = a ∨
      a.status = .approved ∧ a'.status = .executing ∨ a'.status ∈ concludedStatuses := by
    intro a ha a' ha' same
    rcases Table.mem_or_of_mem_putAll (changes.actions ▸ ha') with new | old
    · have base : (db t).actions.get a'.id = some a := by
        rw [same]
        exact Table.get_of_mem ha
      rcases rows a' new with absent | ⟨a₀, base', status⟩
      · exact absurd (absent.symm.trans base) nofun
      · obtain rfl := Option.some.inj (base.symm.trans base')
        exact .inr (status.imp_right And.left)
    · exact .inl (Table.eq_of_key old ha same)
  cases kind with
  | eligible => exact ofCase (p := fun _ => True) marked fun _ _ _ _ _ _ => trivial
  | decision =>
    obtain ⟨_, _, _, _, changes, settled, -⟩ := h.decides past
    refine ofCase (p := (· ≠ .eligible)) marked fun c hc c' hc' same left eligible => ?_
    rcases Table.mem_or_of_mem_putAll (changes.cases ▸ hc') with new | old
    · have absent := (settled c' new).2 eligible
      rw [same] at absent
      exact Table.get_eq_none.1 absent c hc rfl
    · exact left (Table.eq_of_key old hc same ▸ eligible)
  | recovered =>
    refine ofCase (p := (· = .recovered)) marked fun c hc c' hc' same status => ?_
    rcases h.terminal_next past hc (by rw [status]; rfl) hc' same with recovered | rfl
    · exact recovered
    · exact status
  | claimed =>
    refine ofAction (p := (· ≠ .approved)) marked fun a ha a' ha' same left approved => ?_
    rcases rows' a ha a' ha' same with rfl | ⟨approved', -⟩ | done
    · exact left approved
    · exact left approved'
    · rw [approved] at done
      simp [concludedStatuses] at done
  | concluded =>
    refine ofAction (p := (· ∈ concludedStatuses)) marked fun a ha a' ha' same status => ?_
    rcases rows' a ha a' ha' same with rfl | ⟨approved, -⟩ | done
    · exact status
    · rw [approved] at status
      simp [concludedStatuses] at status
    · exact done

/-- Only its claimer ends the execution of an action. -/
theorem Work.ends_execution (h : Work db R grants carried d' t) {a a' : RecoveryAction}
    (ha : a ∈ (db t).actions) (executing : a.status = .executing) (ha' : a' ∈ d'.actions)
    (same : a'.id = a.id) :
    a'.status = .executing ∨ ∃ claim, carried = some claim ∧ claim.actionId = a.id := by
  obtain ⟨_, _, _, _, changes, rows⟩ := h.action_rows
  rcases Table.mem_or_of_mem_putAll (changes.actions ▸ ha') with new | old
  · have base : (db t).actions.get a'.id = some a := by
      rw [same]
      exact Table.get_of_mem ha
    rcases rows a' new with absent | ⟨a₀, base', status⟩
    · exact absurd (absent.symm.trans base) nofun
    · obtain rfl := Option.some.inj (base.symm.trans base')
      rcases status with ⟨approved, -⟩ | ⟨-, other | ⟨claim, carries, id⟩⟩
      · rw [executing] at approved
        cases approved
      · exact absurd executing other
      · exact .inr ⟨claim, carries, id.symm.trans same⟩
  · exact .inl (Table.eq_of_key old ha same ▸ executing)

/-! ## Claimed actions -/

theorem Commits.finalizes (h : Commits db R settings grants p us q t)
    (carries : p.claim? = some claim) : p.stage = 3 := by
  cases h <;> first | rfl | cases carries

/-- From its claim to its finalization an action is `EXECUTING`. -/
theorem executing_of_claims (legal : Legal (Good settings d allows) log)
    (h : Claims log pid claim) (before : ∀ e ∈ log, e.pid = pid → e.stage < 3) :
    ∃ a, (dbOf d log).actions.get claim.actionId = some a ∧ a.status = .executing := by
  obtain ⟨job, p, us, mem⟩ := h
  induction log with
  | nil => cases mem
  | cons e log ih =>
    rcases List.mem_cons.1 mem with rfl | earlier
    · exact (Good.takes legal.2).2
    · obtain ⟨a, base, executing⟩ :=
        ih legal.1 (fun e he => before e (List.mem_cons_of_mem _ he)) earlier
      obtain ⟨ha, id⟩ := Table.get_eq_some.1 base
      have id : a.id = claim.actionId := id
      obtain ⟨a', ha', same⟩ := legal.grows.actions a ha
      refine ⟨a', Table.get_eq_some.2 ⟨ha', same.id.trans id⟩, ?_⟩
      cases e with
      | call => exact Table.eq_of_key ha' ha same.id ▸ executing
      | commit pid' p' us' q' =>
        obtain ⟨own, commits⟩ := legal.2
        refine (commits.work.ends_execution ha executing ha' same.id).resolve_right fun ⟨c,
          carries, cid⟩ => ?_
        have owner : pid' = pid :=
          (own.claimed c carries).unique legal.1 ⟨job, p, us, earlier⟩ (cid.trans id)
        have := before _ (List.mem_cons_self ..) owner
        simp [Event.stage, commits.finalizes carries] at this

omit [PyLib] in
theorem Claims.of_since (h : Since pid ws log₀ log) (claims : Claims log pid claim) :
    Claims log₀ pid claim := by
  obtain ⟨job, p, us, mem⟩ := claims
  induction h with
  | refl => exact ⟨job, p, us, mem⟩
  | step before e other free good ih =>
    rcases List.mem_cons.1 mem with rfl | mem
    · exact absurd rfl other
    · exact ih mem

/-- A finalization finds its action `EXECUTING` whenever it looks. -/
theorem Own.executing (legal : Legal (Good settings d allows) log) (own : Own d pid p log)
    (carries : p.claim? = some claim) (stage : p.stage = 3) (h : Since pid ws log₀ log) :
    ∃ a, (dbOf d log₀).actions.get claim.actionId = some a ∧ a.status = .executing :=
  executing_of_claims (legal.suffix h.suffix) ((own.claimed claim carries).of_since h)
    fun e he owner => stage ▸ own.before e (h.suffix.subset he) owner

/-! ## New events -/

/-- The row of a case that is written is not recovered yet. -/
def unrecovered (v : Db) : Stmt → Bool
  | .flushCase old _ => (v.cases.get old.id).all (·.status ≠ .recovered)
  | _ => true

omit [PyLib] in
theorem Recovers.row_open {merchant : Merchant} {entity : RazorpayPaymentEntity} {amountMinor : Int}
    {currency : String} {env : Draws} {payment : Payment} {inbox : WebhookEvent} {prs : List Row}
    {case r : RecoveryCase} {cancels : List RecoveryAction}
    (recovers : Recovers db R grants inbox prs case r cancels t)
    (pay : WritesCaptured db R env merchant entity amountMinor currency payment prs t)
    (only : ∀ v st, grants v st → unrecovered v st) : r.status ≠ .recovered := by
  obtain ⟨t₀, t₁, -, -, granted, base, -⟩ := recovers.read
  have seen := only _ _ granted
  have row : (view (db t₁) (.webhookEvent inbox :: prs ++ cancels.map fun a => .action
      (Db.cancelled a))).cases.get case.id = some r := by
    simpa [List.filterMap_cons, Row.case?, pay.tables, Function.comp_def] using base
  simp only [unrecovered, row, Option.all_some, decide_eq_true_eq] at seen
  exact seen

/-- A written audit event claims a transition that its commit makes. -/
def Announces (d d' : Db) (kind : AuditKind) (x : AuditEvent) : Prop :=
  auditKind x.eventType = some kind → ¬ kind.Mark d x.entityId ∧ kind.Mark d' x.entityId

theorem announces_of_commit (sound : d.Sound)
    (legal : Legal (Good settings d allows) (.commit pid p us q :: log)) (kind : AuditKind)
    (only : kind = .recovered → ∀ v st, allows v st → unrecovered v st) :
    ∃ cs as os xs, (dbOf d log).Changes (view (dbOf d log) us) cs as os xs ∧ (∀ x ∈ xs, xs = [x]) ∧
      ∀ x ∈ xs, Announces (dbOf d log) (view (dbOf d log) us) kind x := by
  have past : Past (dbOf d) (Since pid) log := legal.1.past sound
  obtain ⟨own, commits⟩ := legal.2
  have single : ∀ {x : AuditEvent}, (Announces (dbOf d log) (view (dbOf d log) us) kind x) →
      (∀ y ∈ [x], [x] = [y]) ∧ ∀ y ∈ [x], Announces (dbOf d log) (view (dbOf d log) us) kind y :=
    fun h => ⟨fun y hy => by rw [List.mem_singleton.1 hy], fun y hy => List.mem_singleton.1 hy ▸ h⟩
  -- A finalization concludes an action that is `EXECUTING`.
  have concludes : ∀ {claim : Claim} {action a' r : RecoveryAction}, p.claim? = some claim →
      (dbOf d log).actions.get claim.actionId = some r → action.id = claim.actionId →
      a' ∈ (view (dbOf d log) us).actions → a'.id = r.id → a'.status ∈ concludedStatuses →
      ¬ (dbOf d log).HasAction (· ∈ concludedStatuses) action.id.str ∧
        (view (dbOf d log) us).HasAction (· ∈ concludedStatuses) action.id.str := by
    intro claim action a' r carries base id mem same status
    obtain ⟨a, found, executing⟩ := own.executing legal.1 carries (commits.finalizes carries)
      (show Since pid [] log log from .refl _)
    obtain rfl := Option.some.inj (base.symm.trans found)
    refine ⟨fun marked => ?_, a', mem, ?_, status⟩
    · have := (hasAction_iff (id ▸ base)).1 marked
      simp [executing, concludedStatuses] at this
    · exact congrArg Uuid.str (same.trans ((Table.get_eq_some.1 base).2.trans id.symm))
  have work := commits.work
  cases work with
  | quiet changes | blocked _ _ changes => exact ⟨_, _, _, _, changes, by simp, by simp⟩
  | noted carries found other _ changes =>
    obtain ⟨t₀, t₁, h₀, h₁, read, -⟩ := found
    obtain ⟨a, found, executing⟩ :=
      own.executing legal.1 carries (commits.finalizes carries) (h₀.trans h₁)
    exact absurd (Option.some.inj (read.symm.trans found) ▸ executing) other
  | @decided env case c ps source s _ _ taken _ _ _ changes =>
    refine ⟨_, _, _, _, changes, single fun type => ?_⟩
    obtain rfl : AuditKind.decision = kind := Option.some.inj type
    refine ⟨fun marked => (hasCase_iff (p := (· ≠ .eligible)) taken.base).1 marked taken.status, ?_⟩
    exact ⟨_, changes.case_mem, congrArg Uuid.str (Table.get_eq_some.1 taken.base).2,
      (finalStatus_ne s).1⟩
  | @cancelled env actionId action a case ps stops payload _ _ held stop _ changes =>
    refine ⟨_, _, _, _, changes, single fun type => ?_⟩
    obtain rfl : AuditKind.concluded = kind := Option.some.inj type
    have id : a.id = action.id := (held.same past).id
    refine ⟨fun marked => ?_, _, changes.action_mem, congrArg Uuid.str id,
      by simp [concludedStatuses]⟩
    have base : (dbOf d log).actions.get action.id = some a :=
      id ▸ Table.get_of_mem (Table.get_eq_some.1 held.base).1
    have := (hasAction_iff (p := (· ∈ concludedStatuses)) base).1 marked
    simp [held.approved, concludedStatuses] at this
  | @claimed env actionId action a case ps payload _ _ held open_ _ changes =>
    refine ⟨_, _, _, _, changes, single fun type => ?_⟩
    obtain rfl : AuditKind.claimed = kind := Option.some.inj type
    have id : a.id = action.id := (held.same past).id
    have base : (dbOf d log).actions.get action.id = some a :=
      id ▸ Table.get_of_mem (Table.get_eq_some.1 held.base).1
    exact ⟨fun marked => (hasAction_iff (p := (· ≠ .approved)) base).1 marked held.approved, _,
      changes.action_mem, congrArg Uuid.str id, nofun⟩
  | executed carries found executing _ base _ changes =>
    refine ⟨_, _, _, _, changes, single fun type => ?_⟩
    obtain rfl : AuditKind.concluded = kind := Option.some.inj type
    obtain ⟨t₀, t₁, h₀, h₁, read, -⟩ := found
    refine concludes carries base (Table.get_eq_some.1 read).2 changes.action_mem rfl ?_
    simp [Db.patchAction, RecoveryAction.succeeded, Db.changed, executing, concludedStatuses]
  | failed carries found executing base _ changes =>
    refine ⟨_, _, _, _, changes, single fun type => ?_⟩
    obtain rfl : AuditKind.concluded = kind := Option.some.inj type
    obtain ⟨t₀, t₁, h₀, h₁, read, -⟩ := found
    refine concludes carries base (Table.get_eq_some.1 read).2 changes.action_mem rfl ?_
    simp [Db.patchAction, RecoveryAction.unsuccessful, Db.changed, executing, concludedStatuses]
  | created _ absent _ _ changes =>
    refine ⟨_, _, _, _, changes, single fun type => ?_⟩
    obtain rfl : AuditKind.eligible = kind := Option.some.inj type
    refine ⟨?_, _, changes.case_mem, rfl, trivial⟩
    rintro ⟨c, hc, id, -⟩
    exact Table.get_eq_none.1 absent.case c hc (Uuid.str_injective id)
  | activated found status base _ _ changes =>
    obtain ⟨t₀, h₀, hc⟩ := found
    exact absurd status ((past.sound h₀).notFailed _ (Table.mem_of_find hc).1)
  | recovered pay _ recovers _ _ changes =>
    refine ⟨_, _, _, _, changes, single fun type => ?_⟩
    obtain rfl : AuditKind.recovered = kind := Option.some.inj type
    refine ⟨fun marked => recovers.row_open pay (only rfl)
      ((hasCase_iff (p := (· = .recovered)) recovers.base).1 marked), ?_⟩
    exact ⟨_, changes.case_mem, congrArg Uuid.str (Table.get_eq_some.1 recovers.base).2,
      patchCase_recovered_status recovers.nonterminal _⟩

/-- No two events of one kind about one entity, in every ledger. -/
theorem marked_of_legal (sound : d.Sound) (kind : AuditKind)
    (only : kind = .recovered → ∀ v st, allows v st → unrecovered v st)
    (initially : Marked (auditKind · = some kind) kind.Mark d)
    (legal : Legal (Good settings d allows) log) :
    Marked (auditKind · = some kind) kind.Mark (dbOf d log) := by
  induction log with
  | nil => exact initially
  | cons e log ih =>
    cases e with
    | call => exact ih legal.1
    | commit pid p us q =>
      obtain ⟨_, _, _, _, changes, one, announces⟩ := announces_of_commit sound legal kind only
      exact (ih legal.1).step changes.audits one
        (legal.2.2.work.keeps_mark (legal.1.past sound) legal.grows kind) announces

/-- No two audit events claim the same transition of one entity. -/
def AuditsOnce (d : Db) (kind : AuditKind) : Prop := ∀ x ∈ d.audits, ∀ y ∈ d.audits,
  auditKind x.eventType = some kind → auditKind y.eventType = some kind →
    x.entityId = y.entityId → x = y

theorem auditsOnce_of_legal {merchants : Table Merchant} {policies : Table MerchantPolicy}
    (kind : AuditKind) (only : kind = .recovered → ∀ v st, allows v st → unrecovered v st)
    (legal : Legal (Good settings (.initial merchants policies) allows) log) :
    AuditsOnce (dbOf (.initial merchants policies) log) kind :=
  (marked_of_legal (Db.sound_initial merchants policies) kind only
    ⟨fun _ h => absurd h List.not_mem_nil, fun _ h => absurd h List.not_mem_nil⟩ legal).one

/-- Recoveries apart, no race makes two events of one transition. -/
theorem transitions_audited_once {merchants : Table Merchant} {policies : Table MerchantPolicy}
    {s : Run Stmt Stmt.Ans Db Err Process Claim Row}
    (run : (service settings).Reaches (.initial merchants policies) s) {kind : AuditKind}
    (other : kind ≠ .recovered) : AuditsOnce s.db kind := by
  obtain ⟨legal, db⟩ := run.legal rfl fun _ h => h
  exact db ▸ auditsOnce_of_legal kind (fun h => absurd h other) legal

/-- Runs in which no captured event writes the row of a case that is `RECOVERED` already. -/
def unrecoveredService (settings : Settings) :
    Program Stmt Stmt.Ans Db Err Process Env Claim ExternalReply :=
  { service settings with allows := unrecovered }

theorem audits_once {merchants : Table Merchant} {policies : Table MerchantPolicy}
    {s : Run Stmt Stmt.Ans Db Err Process Claim Row}
    (run : (unrecoveredService settings).Reaches (.initial merchants policies) s)
    (kind : AuditKind) : AuditsOnce s.db kind := by
  obtain ⟨legal, db⟩ := run.legal rfl fun _ h => h
  exact db ▸ auditsOnce_of_legal kind (fun _ _ _ h => h) legal

end

theorem unrecovered_of_undisturbed (v : Db) (st : Stmt) (h : undisturbed v st) :
    unrecovered v st := by
  cases st with
  | flushCase old new =>
    simp only [undisturbed, unrecovered, Bool.and_eq_true, Option.all_eq_true] at h ⊢
    exact fun r found => (h.1 r found).2
  | _ => rfl

theorem audits_once_sample :
    ∃ s, (@unrecoveredService (.recorded [expiredInstrument, captured]) {}).moves
      (.initial sampleDb) sampleRecovery = some s ∧
    s.db.audits.rows.map (·.eventType) = ["recovery_case.eligible", "recovery_case.decision",
      "recovery_action.claimed", "recovery_case.recovered"] ∧
    ∀ kind, AuditsOnce s.db kind := by
  let _ : PyLib := .recorded [expiredInstrument, captured]
  obtain ⟨s, run, -, -, -, types⟩ := sampleRecovery_run
  have run : (unrecoveredService {}).moves (.initial sampleDb) sampleRecovery = some s := by
    unfold unrecoveredService
    exact moves_of_undisturbed unrecovered_of_undisturbed run
  exact ⟨s, run, types, audits_once (.moves .refl run)⟩

/-- Two captured events, one of them with notes, read the case before either writes it. -/
def recoveredTwice : List (Nat × Move Err Process Env ExternalReply) :=
  (0, .spawn (.webhook expiredInstrument.request)) :: transaction 0 (.numbered 1) 11 ++
  (1, .spawn (.webhook capturedWithNotes.request)) :: (1, .enter (.numbered 2)) ::
    List.replicate 5 (1, .exec) ++
  (2, .spawn (.webhook captured.request)) :: transaction 2 (.numbered 3) 11 ++
  List.replicate 5 (1, .exec) ++ [(1, .finish)]

/-- Both events are recorded as the recovery of the case. -/
theorem audits_recovered_twice : ∃ s,
    (@service (.recorded [expiredInstrument, captured, capturedWithNotes]) {}).Reaches sampleDb s ∧
    ¬ AuditsOnce s.db .recovered := by
  let _ : PyLib := .recorded [expiredInstrument, captured, capturedWithNotes]
  have audits : ((service {}).moves (.initial sampleDb) recoveredTwice).map (fun s =>
      (s.db.audits.rows.filter (auditKind ·.eventType = some .recovered)).map fun x =>
        (x.id, x.entityId)) =
      some [(.ofNat 36, (Uuid.ofNat 12).str), (.ofNat 26, (Uuid.ofNat 12).str)] := by decide +kernel
  obtain ⟨s, run, audits⟩ := Option.map_eq_some_iff.1 audits
  refine ⟨s, .moves .refl run, fun once => ?_⟩
  obtain ⟨x, hx, eqX⟩ := List.mem_map.1 (audits ▸ List.mem_cons_self ..)
  obtain ⟨y, hy, eqY⟩ :=
    List.mem_map.1 (audits ▸ List.mem_cons_of_mem _ (List.mem_singleton_self _))
  simp only [Prod.mk.injEq, List.mem_filter, decide_eq_true_eq] at hx hy eqX eqY
  have := once x hx.1 y hy.1 hx.2 hy.2 (eqX.2.trans eqY.2.symm)
  have same : Uuid.ofNat 36 = Uuid.ofNat 26 := eqX.1.symm.trans (this ▸ eqY.1)
  exact absurd same (by decide)

end RecoverAI
