import RecoverAI.Concurrency.Once
import RecoverAI.Serial.Statements

/-!
# Keys and intents

What an outbox event or an action is for can be read off its idempotency key: every row
carries the key of its own intent in every run, so a row that is found by its key was
written for the same intent.
-/
namespace RecoverAI

open Store

/-- The templates of the outbox keys, with their ids. -/
inductive OutboxIntent where
  | eligible (recoveryCaseId : Uuid)
  | recovered (recoveryCaseId : Uuid)
  | actionScheduled (recoveryCaseId recoveryActionId : Uuid)
deriving DecidableEq

namespace OutboxIntent

def eventType : OutboxIntent → String
  | eligible _ => "recovery_case.eligible"
  | recovered _ => "recovery_case.recovered"
  | actionScheduled .. => "recovery_case.action_scheduled"

/-- The ids a template is filled with. -/
def ids : OutboxIntent → List Uuid
  | eligible caseId | recovered caseId => [caseId]
  | actionScheduled caseId actionId => [caseId, actionId]

def key (i : OutboxIntent) : String := i.ids.foldl (fun key id => key ++ ":" ++ id.str) i.eventType

/-- The event does what is intended: it has the type, is about the case and schedules the action. -/
def Names (o : OutboxEvent) (i : OutboxIntent) : Prop :=
  o.eventType = i.eventType ∧ match i with
    | eligible caseId | recovered caseId => o.aggregateId = caseId.str
    | actionScheduled caseId actionId => o.aggregateId = caseId.str ∧
        Json.item o.payload "recovery_action_id" = .str actionId.str

/-! ## Keys -/

theorem colon_not_mem_eventType (i : OutboxIntent) : ':' ∉ i.eventType.toList := by
  cases i <;> simp only [eventType] <;> decide

/-- What the ids add to the type. -/
def suffix : List Uuid → List Char
  | [] => []
  | id :: ids => ':' :: id.chars ++ suffix ids

theorem toList_foldl (ids : List Uuid) (text : String) :
    (ids.foldl (fun key id => key ++ ":" ++ id.str) text).toList = text.toList ++ suffix ids := by
  induction ids generalizing text with
  | nil => simp [suffix]
  | cons id ids ih =>
    rw [List.foldl_cons, ih]
    simp [suffix, Uuid.str]

theorem length_chars (u : Uuid) : u.chars.length = 36 := by
  simpa [Uuid.str] using Uuid.length_str u

/-- Ids have one length, so their texts can be told apart. -/
theorem suffix_inj {ids ids' : List Uuid} (same : suffix ids = suffix ids') : ids = ids' := by
  induction ids generalizing ids' with
  | nil =>
    cases ids' with
    | nil => rfl
    | cons => cases same
  | cons id ids ih =>
    cases ids' with
    | nil => cases same
    | cons id' ids' =>
      obtain ⟨chars, rest⟩ :=
        List.append_inj (List.cons.inj same).2 (by rw [length_chars, length_chars])
      rw [ih rest, Uuid.str_injective (congrArg String.ofList chars)]

/-- Equal keys have equal types and equal ids. -/
theorem key_inj {i j : OutboxIntent} (same : i.key = j.key) : i = j := by
  have texts := congrArg String.toList same
  rw [key, key, toList_foldl, toList_foldl] at texts
  have some_id : ∀ i : OutboxIntent, ∃ s, suffix i.ids = ':' :: s := by
    intro i
    cases i <;> exact ⟨_, rfl⟩
  obtain ⟨s, hs⟩ := some_id i
  obtain ⟨s', hs'⟩ := some_id j
  rw [hs, hs'] at texts
  obtain ⟨types, rest⟩ :=
    Text.append_cons_inj (colon_not_mem_eventType i) (colon_not_mem_eventType j) texts
  have types : i.eventType = j.eventType := String.toList_inj.1 types
  have ids : i.ids = j.ids := suffix_inj (by rw [hs, hs', rest])
  cases i <;> cases j <;> simp_all [eventType, OutboxIntent.ids]

theorem length_suffix (ids : List Uuid) : (suffix ids).length = 37 * ids.length := by
  induction ids with
  | nil => rfl
  | cons id ids ih =>
    rw [suffix, List.length_append, List.length_cons, List.length_cons, length_chars, ih]
    omega

theorem nul_not_mem_suffix (ids : List Uuid) : '\x00' ∉ suffix ids := by
  induction ids with
  | nil => exact List.not_mem_nil
  | cons id ids ih =>
    have clean : '\x00' ∉ id.chars := by simpa [hasNul, Uuid.str] using hasNul_uuid id
    simp [suffix, clean, ih]

theorem varchar_key (i : OutboxIntent) : varchar 128 i.key := by
  have type : i.eventType.toList.length ≤ 30 ∧ '\x00' ∉ i.eventType.toList := by
    cases i <;> simp only [eventType] <;> decide
  have ids : i.ids.length ≤ 2 := by
    cases i <;> simp [OutboxIntent.ids]
  have clean := nul_not_mem_suffix i.ids
  have length := length_suffix i.ids
  rw [varchar, ← String.length_toList, hasNul, key, toList_foldl, List.length_append, length]
  simp only [List.contains_eq_mem, List.mem_append, type, clean, or_self, decide_false,
    Bool.not_false, Bool.and_true, decide_eq_true_eq]
  omega

end OutboxIntent

def RecoveryAction.Canonical (a : RecoveryAction) : Prop :=
  a.idempotencyKey = recoveryActionIdempotencyKey a.recoveryCaseId a.actionType a.attemptNumber

/-- The event carries the key of the intent it names. -/
def OutboxEvent.Keyed (o : OutboxEvent) : Prop :=
  ∃ i : OutboxIntent, i.Names o ∧ o.idempotencyKey = i.key

structure Db.Keyed (d : Db) : Prop where
  outbox : ∀ o ∈ d.outbox, o.Keyed
  actions : ∀ a ∈ d.actions, a.Canonical

theorem OutboxEvent.Keyed.names {o : OutboxEvent} (h : o.Keyed) {i : OutboxIntent}
    (key : o.idempotencyKey = i.key) : i.Names o := by
  obtain ⟨j, names, own⟩ := h
  obtain rfl := OutboxIntent.key_inj (own.symm.trans key)
  exact names

theorem keyed_eligible (env : Draws) (merchant : Merchant) (payment : Payment)
    (case : RecoveryCase) :
    (eligibleOutbox env merchant payment case).Keyed := ⟨.eligible case.id, ⟨rfl, rfl⟩, rfl⟩

theorem keyed_recovered (env : Draws) (merchant : Merchant) (payment : Payment)
    (case : RecoveryCase) :
    (recoveredOutbox env merchant payment case).Keyed := ⟨.recovered case.id, ⟨rfl, rfl⟩, rfl⟩

theorem keyed_actionScheduled (env : Draws) (case : RecoveryCase) (action : RecoveryAction)
    (deliverAt : Time) : (actionScheduledOutbox env case action deliverAt).Keyed :=
  ⟨.actionScheduled case.id action.id, ⟨rfl, rfl, rfl⟩, by
    have text : "recovery_case.action_scheduled:" = "recovery_case.action_scheduled" ++
        ":" := by decide
    rw [actionScheduledOutbox, text]
    rfl⟩

/-! ## Runs -/

section

variable {T : Type} {db : T → Db} {R : List Row → T → T → Prop} {allows : Db → Stmt → Prop}
  {carried : Option Claim} {t : T} {d d' : Db}

theorem Db.Keyed.step {cs : List RecoveryCase} {as : List RecoveryAction} {os : List OutboxEvent}
    {xs : List AuditEvent} (h : d.Keyed) (changes : d.Changes d' cs as os xs)
    (outbox : ∀ o ∈ os, o.Keyed) (actions : ∀ a ∈ as, a.Canonical) : d'.Keyed where
  outbox o ho := (Table.mem_or_of_mem_putAll (changes.outbox ▸ ho)).elim (outbox o) (h.outbox o)
  actions a ha := (Table.mem_or_of_mem_putAll (changes.actions ▸ ha)).elim (actions a) (h.actions a)

theorem Ensures.keyed {event : OutboxEvent} {ors : List Row} (h : Ensures db R event ors t)
    (own : event.Keyed) : ∀ o ∈ outboxOf ors, o.Keyed := by
  cases h with
  | present => simp
  | inserted => exact fun o ho => List.mem_singleton.1 ho ▸ own

variable [PyLib]

theorem Work.keyed (h : Work db R allows carried d' t) (keyed : (db t).Keyed) : d'.Keyed := by
  have none : ∀ o ∈ ([] : List OutboxEvent), o.Keyed := by simp
  have unacted : ∀ a ∈ ([] : List RecoveryAction), a.Canonical := by simp
  -- A row that is written back has the key it had.
  have kept : ∀ {a a' : RecoveryAction} {id : Uuid}, (db t).actions.get id = some a → a.Same a' →
      ∀ b ∈ [a'], b.Canonical := by
    intro a a' id found same b hb
    obtain rfl := List.mem_singleton.1 hb
    rw [RecoveryAction.Canonical, same.idempotencyKey, same.recoveryCaseId, same.actionType,
      same.attemptNumber]
    exact keyed.actions a (Table.get_eq_some.1 found).1
  cases h with
  | quiet changes | noted _ _ _ _ changes | blocked _ _ changes =>
    exact keyed.step changes none unacted
  | decided taken action outbox audit changes =>
    refine keyed.step changes (fun o ho => ?_) fun a ha => ?_
    · rw [mem_scheduledRows ho]
      exact keyed_actionScheduled _ _ _ _
    · rw [List.mem_singleton.1 ha]
      rfl
  | cancelled held _ _ changes | claimed held _ _ changes =>
    exact keyed.step changes none (kept held.base ⟨rfl, rfl, rfl, rfl, rfl, rfl⟩)
  | executed _ _ _ _ base _ changes | failed _ _ _ base _ changes =>
    exact keyed.step changes none (kept base ⟨rfl, rfl, rfl, rfl, rfl, rfl⟩)
  | created _ _ _ event changes | activated _ _ _ _ event changes =>
    exact keyed.step changes (event.keyed (keyed_eligible _ _ _ _)) unacted
  | recovered _ _ recovers _ event changes =>
    refine keyed.step changes (event.keyed (keyed_recovered _ _ _ _)) fun a' ha' => ?_
    obtain ⟨a, ha, rfl⟩ := List.mem_map.1 ha'
    have same : a.Same (Db.cancelled a) := ⟨rfl, rfl, rfl, rfl, rfl, rfl⟩
    exact kept (recovers.actions a ha) same _ List.mem_cons_self

end

section

variable [PyLib] {settings : Settings} {d : Db} {allows : Db → Stmt → Bool} {log : Ledger}

theorem keyed_of_legal (keyed : d.Keyed) (legal : Legal (Good settings d allows) log) :
    (dbOf d log).Keyed := by
  induction log with
  | nil => exact keyed
  | cons e log ih =>
    cases e with
    | call => exact ih legal.1
    | commit pid p us q => exact legal.2.2.work.keyed (ih legal.1)

theorem keyed_of_reaches {merchants : Table Merchant} {policies : Table MerchantPolicy}
    {s : Run Stmt Stmt.Ans Db Err Process Claim Row}
    (run : (service settings).Reaches (.initial merchants policies) s) :
    s.db.Keyed := by
  have code : (service settings).act = Process.act settings := rfl
  obtain ⟨legal, db⟩ := run.legal code fun _ h => h
  have initial : (Db.initial merchants policies).Keyed := by
    constructor <;> intro r hr <;> exact absurd hr List.not_mem_nil
  exact db ▸ keyed_of_legal initial legal

end

/-! ## Look-ups -/

section

variable {C : Setting Stmt Db Row} {X : Err → List Row → C.State → Prop} {ws : List Row}
  {s : C.State}

/-- After `insert_outbox_if_missing` an event that names the intent is in the outbox. -/
theorem wp_insertOutboxIfMissing_names (keyed : ∀ t, C.rely ws s t → (C.sees ws t).Keyed)
    {i : OutboxIntent} {event : OutboxEvent} (names : i.Names event)
    (key : event.idempotencyKey = i.key) :
    C.wp (insertOutboxIfMissing event) (fun _ us _ => ∃ t,
      C.rely ws s t ∧ ∃ o ∈ (C.sees us t).outbox, i.Names o)
      (fun _ _ _ => True) ws s := by
  rw [insertOutboxIfMissing, Setting.wp_bind]
  refine wp_selectOutbox fun t ht => ?_
  split
  next o found =>
    obtain ⟨mem, same⟩ := Table.mem_of_find found
    have same : o.idempotencyKey = event.idempotencyKey := by simpa using same
    exact ⟨t, ht, o, mem, ((keyed t ht).outbox o mem).names (same.trans key)⟩
  next missing =>
    refine wp_insert (fun u hu _ _ => ?_) fun _ _ _ _ _ => trivial
    refine ⟨u, C.rely_trans ht hu, event, ?_, names⟩
    simp [Setting.sees, Row.outbox?, Table.putAll_append, Table.mem_put]

/-- `create_recovery_action_idempotent` answers with an action of the attempt it was asked for. -/
theorem wp_createRecoveryActionIdempotent_attempt (keyed : ∀ t, C.rely ws s t → (C.sees ws t).Keyed)
    {action : RecoveryAction} (canonical : action.Canonical) :
    C.wp (createRecoveryActionIdempotent action) (fun answer _ _ =>
        answer.1.recoveryCaseId = action.recoveryCaseId ∧ answer.1.actionType = action.actionType ∧
          answer.1.attemptNumber = action.attemptNumber) (fun _ _ _ => True) ws s := by
  -- The key is looked up twice, before the insert and after it failed.
  have byKey : ∀ {t a}, C.rely ws s t →
      (C.sees ws t).actions.find (fun a => a.idempotencyKey = action.idempotencyKey) = some a →
      a.recoveryCaseId = action.recoveryCaseId ∧ a.actionType = action.actionType ∧
        a.attemptNumber = action.attemptNumber := by
    intro t a ht found
    obtain ⟨mem, same⟩ := Table.mem_of_find found
    have same : a.idempotencyKey = action.idempotencyKey := by simpa using same
    exact recoveryActionIdempotencyKey_inj
      (((keyed t ht).actions a mem).symm.trans (same.trans canonical))
  rw [createRecoveryActionIdempotent, Setting.wp_bind]
  refine wp_selectAction fun t₁ h₁ => ?_
  split
  next a found => exact byKey h₁ found
  next =>
    rw [Setting.wp_bind]
    refine wp_attempt_insert (fun _ _ _ _ => ⟨rfl, rfl, rfl⟩) fun e t₂ h₂ _ _ => ?_
    cases e <;> try trivial
    have h₁₂ := C.rely_trans h₁ h₂
    rw [Setting.wp_bind]
    refine wp_selectAction fun t₃ h₃ => ?_
    split
    next a found => exact byKey (C.rely_trans h₁₂ h₃) found
    next =>
      rw [Setting.wp_bind]
      refine wp_selectAction fun t₄ h₄ => ?_
      split
      next a found =>
        have same := (Table.mem_of_find found).2
        simpa [and_assoc] using same
      next => trivial

end

/-- Keys tell intents apart, fit their columns, and a look-up by key finds the intent it
was made for: of a transaction of any setting, whatever the others commit in between, as
long as what it sees is keyed. -/
theorem intents_apart [PyLib] (settings : Settings) :
    (∀ i j : OutboxIntent, i.key = j.key → i = j) ∧
    (∀ (c c' : Uuid) (type type' : RecoveryActionType) (n n' : Int),
      recoveryActionIdempotencyKey c type n = recoveryActionIdempotencyKey c' type' n' →
        c = c' ∧ type = type' ∧ n = n') ∧
    (∀ i : OutboxIntent, varchar 128 i.key) ∧
    (∀ (c : Uuid) (type : RecoveryActionType) (n : Int), integer n →
      varchar 128 (recoveryActionIdempotencyKey c type n)) ∧
    (∀ merchants policies s,
      (service settings).Reaches (.initial merchants policies) s → s.db.Keyed) ∧
    ∀ (C : Setting Stmt Db Row) (ws : List Row) (s : C.State),
      (∀ t, C.rely ws s t → (C.sees ws t).Keyed) →
      (∀ (i : OutboxIntent) (event : OutboxEvent), i.Names event → event.idempotencyKey = i.key →
        C.wp (insertOutboxIfMissing event)
          (fun _ us _ => ∃ t, C.rely ws s t ∧ ∃ o ∈ (C.sees us t).outbox, i.Names o)
            (fun _ _ _ => True) ws s) ∧
      ∀ action : RecoveryAction, action.Canonical →
        C.wp (createRecoveryActionIdempotent action) (fun answer _ _ =>
          answer.1.recoveryCaseId = action.recoveryCaseId ∧
            answer.1.actionType = action.actionType ∧
            answer.1.attemptNumber = action.attemptNumber) (fun _ _ _ => True) ws s :=
  ⟨fun _ _ => OutboxIntent.key_inj, fun _ _ _ _ _ _ => recoveryActionIdempotencyKey_inj,
    OutboxIntent.varchar_key, fun c type _ => varchar_recoveryActionIdempotencyKey c type,
    fun _ _ _ => keyed_of_reaches, fun _ _ _ keyed =>
    ⟨fun _ _ => wp_insertOutboxIfMissing_names keyed,
      fun _ => wp_createRecoveryActionIdempotent_attempt keyed⟩⟩

end RecoverAI
