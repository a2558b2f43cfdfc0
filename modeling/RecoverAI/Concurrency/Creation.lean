import RecoverAI.Serial.Statements
import RecoverAI.System.Processes
import Mathlib.Data.List.Pairwise

/-!
# Concurrent creation of one action

Any number of transactions call `create_recovery_action_idempotent` with the canonical key of one
case, action type and attempt number. The row of that attempt is there when one of them has
committed, and every call answers with it.
-/
namespace RecoverAI

open Store

/-- What the callers ask for. -/
structure Wanted where
  case : RecoveryCase
  actionType : RecoveryActionType
  attemptNumber : Int

/-- A caller before its transaction with the id it will draw, and after it. -/
inductive Caller where
  | calling (actionId : Uuid) (status : RecoveryActionStatus) (scheduledAt : Option Time)
  | returned (action : RecoveryAction) (created : Bool)
  | raised (e : Err)

namespace Wanted

variable (w : Wanted)

def key : String := recoveryActionIdempotencyKey w.case.id w.actionType w.attemptNumber

/-- `a` is a row for the case, the type and the attempt. -/
def Of (a : RecoveryAction) : Prop :=
  a.recoveryCaseId = w.case.id ∧ a.actionType = w.actionType ∧ a.attemptNumber = w.attemptNumber

instance (a : RecoveryAction) : Decidable (w.Of a) :=
  inferInstanceAs (Decidable (a.recoveryCaseId = w.case.id ∧ a.actionType = w.actionType ∧
    a.attemptNumber = w.attemptNumber))

/-- The row a caller inserts. -/
def row (actionId : Uuid) (status : RecoveryActionStatus) (scheduledAt : Option Time) :
    RecoveryAction where
  id := actionId
  merchantId := w.case.merchantId
  recoveryCaseId := w.case.id
  actionType := w.actionType
  status := status
  idempotencyKey := w.key
  attemptNumber := w.attemptNumber
  providerReference := none
  scheduledAt := scheduledAt
  executedAt := none
  failureReason := none

/-- The transaction of a caller. -/
def body (actionId : Uuid) (status : RecoveryActionStatus) (scheduledAt : Option Time) :
    Tx Caller := do
  let (action, created) ← createRecoveryActionIdempotent (w.row actionId status scheduledAt)
  return .returned action created

/-- Callers draw ids that no action of `d` has. -/
def callers (d : Db) : Program Stmt Stmt.Ans Db Err Caller Unit Empty Empty where
  act
    | .calling actionId status scheduledAt =>
      .txn (fun _ => w.body actionId status scheduledAt) .raised
    | _ => .stop
  starts
    | .calling actionId .. => (d.actions.get actionId).isNone
    | _ => false
  faults _ := false
  allows _ _ := true

end Wanted

/-- The events of the callers, the newest first. -/
abbrev CallLog := Log Caller Empty Row

/-- A commit that returned `created = True`. -/
def creates : Event Caller Empty Row → Bool
  | .commit _ _ _ (.returned _ created) => created
  | _ => false

/-- What a caller commits: the first row of the attempt, or nothing where there is one. -/
def Answered (d : Db) (w : Wanted) (log : CallLog) : Event Caller Empty Row → Prop
  | .commit _ _ us (.returned a true) => us = [.action a] ∧ w.Of a ∧ a.idempotencyKey = w.key ∧
      (dbOf d log).Absent (.action a)
  | .commit _ _ us (.returned a false) => us = [] ∧ w.Of a ∧ a ∈ (dbOf d log).actions
  | _ => False

/-- A caller that waits has a new id, and none has raised. -/
def Caller.Sane (d : Db) : Caller → Prop
  | .calling actionId .. => d.actions.get actionId = none
  | .returned .. => True
  | .raised _ => False

/-! ## Logs -/

section

variable {d : Db} {w : Wanted} {log log' : CallLog} {e : Event Caller Empty Row}

theorem Answered.cases (h : Answered d w log e) : ∃ pid p a created, ∃ us,
    e = .commit pid p us (.returned a created) ∧ w.Of a ∧ (created = true ∧ us = [.action a] ∧
      a.idempotencyKey = w.key ∧ (dbOf d log).Absent (.action a) ∨
    created = false ∧ us = [] ∧ a ∈ (dbOf d log).actions) := by
  cases e with
  | call pid c => cases c
  | commit pid p us q =>
    cases q with
    | calling | raised => cases h
    | returned a created =>
      cases created with
      | true => exact ⟨pid, p, a, true, us, rfl, h.2.1, .inl ⟨rfl, h.1, h.2.2⟩⟩
      | false => exact ⟨pid, p, a, false, us, rfl, h.2.1, .inr ⟨rfl, h.1, h.2.2⟩⟩

/-- An event keeps the actions that are there. -/
theorem Answered.keeps (h : Answered d w log e) {a : RecoveryAction}
    (ha : a ∈ (dbOf d log).actions) : a ∈ (dbOf d (e :: log)).actions := by
  obtain ⟨pid, p, b, created, us, rfl, -, ⟨-, rfl, -, absent⟩ | ⟨-, rfl, -⟩⟩ := h.cases
  · refine Table.mem_put.2 (.inr ⟨ha, fun same => ?_⟩)
    have missing : (dbOf d log).actions.get b.id = none :=
      absent (.action b.id) (by simp [Row.keys])
    exact Table.get_eq_none.1 missing a ha same
  · exact ha

theorem Answered.row (h : Answered d w log e) :
    ∃ pid p us a created, e = .commit pid p us (.returned a created) ∧
    w.Of a ∧ a ∈ (dbOf d (e :: log)).actions := by
  obtain ⟨pid, p, a, created, us, rfl, own, ⟨-, rfl, -⟩ | ⟨-, rfl, ha⟩⟩ := h.cases
  · exact ⟨pid, p, _, a, created, rfl, own, Table.mem_put.2 (.inl rfl)⟩
  · exact ⟨pid, p, _, a, created, rfl, own, ha⟩

/-- Nothing has been created, or one row has. -/
theorem creation_of_legal (legal : Legal (Answered d w) log) :
    dbOf d log = d ∧ log.countP creates = 0 ∨
    ∃ a, w.Of a ∧ a.idempotencyKey = w.key ∧ d.Absent (.action a) ∧ dbOf d log = d.put (.action a) ∧
      log.countP creates = 1 := by
  induction log with
  | nil => exact .inl ⟨rfl, rfl⟩
  | cons e log ih =>
    obtain ⟨pid, p, a, created, us, rfl, own,
      ⟨rfl, rfl, key, absent⟩ | ⟨rfl, rfl, -⟩⟩ := legal.2.cases
    · rcases ih legal.1 with ⟨same, none⟩ | ⟨b, own', -, -, put, -⟩
      · exact .inr ⟨a, own, key, same ▸ absent, congrArg (·.put (.action a)) same,
          (List.countP_cons_of_pos rfl).trans (congrArg (· + 1) none)⟩
      · -- The row that was created has the attempt.
        have free : (dbOf d log).lacks (.attempt a.recoveryCaseId a.actionType a.attemptNumber) :=
          absent _ (by simp [Row.keys])
        have there : b ∈ (dbOf d log).actions := by
          rw [put]
          exact Table.mem_put.2 (.inl rfl)
        exact absurd ⟨own'.1.trans own.1.symm, own'.2.1.trans own.2.1.symm,
          own'.2.2.trans own.2.2.symm⟩ (free b there)
    · rcases ih legal.1 with ⟨same, none⟩ | ⟨b, own', key, absent, put, one⟩
      · exact .inl ⟨same, (List.countP_cons_of_neg Bool.false_ne_true).trans none⟩
      · exact .inr ⟨b, own', key, absent, put,
          (List.countP_cons_of_neg Bool.false_ne_true).trans one⟩

theorem actions_of_suffix (legal : Legal (Answered d w) log') (h : log <:+ log')
    {a : RecoveryAction} (ha : a ∈ (dbOf d log).actions) : a ∈ (dbOf d log').actions := by
  obtain ⟨before, rfl⟩ := h
  induction before with
  | nil => exact ha
  | cons e before ih => exact legal.2.keeps (ih legal.1)

/-- Every committed call has answered with a row of the attempt that is there. -/
theorem answer_of_mem (legal : Legal (Answered d w) log) (he : e ∈ log) : ∃ pid p us a created,
    e = .commit pid p us (.returned a created) ∧ w.Of a ∧ a ∈ (dbOf d log).actions := by
  obtain ⟨after, before, rfl⟩ := List.append_of_mem he
  have suffix : e :: before <:+ after ++ e :: before := List.suffix_append _ _
  obtain ⟨pid, p, us, a, created, rfl, own, ha⟩ := (legal.suffix suffix).2.row
  exact ⟨pid, p, us, a, created, rfl, own, actions_of_suffix legal suffix ha⟩

end

/-! ## Transactions -/

section

variable {d : Db} {w : Wanted} {log log' : CallLog}

/-- A row of the attempt or with its key is one of the attempt. -/
theorem of_taken (legal : Legal (Answered d w) log)
    (owned : ∀ a ∈ d.actions, a.idempotencyKey = w.key → w.Of a) {actionId : Uuid}
    {status : RecoveryActionStatus} {scheduledAt : Option Time} {a : RecoveryAction}
    (ha : a ∈ (dbOf d log).actions) (same : SameAttempt (w.row actionId status scheduledAt) a) :
    w.Of a := by
  rcases same with key | own
  · rcases creation_of_legal legal with ⟨db, -⟩ | ⟨b, own, -, -, db, -⟩ <;> rw [db] at ha
    · exact owned a ha key
    · rcases Table.mem_put.1 ha with rfl | ⟨ha, -⟩
      · exact own
      · exact owned a ha key
  · exact own

/-- An insert fails where the attempt has a row. -/
theorem taken_of_fails (legal : Legal (Answered d w) log)
    (owned : ∀ a ∈ d.actions, a.idempotencyKey = w.key → w.Of a) {actionId : Uuid}
    {status : RecoveryActionStatus} {scheduledAt : Option Time}
    (fresh : d.actions.get actionId = none)
    (stored : (Row.action (w.row actionId status scheduledAt)).Stored)
    (references : d.references (.action (w.row actionId status scheduledAt))) {e : DbError}
    (fails : (dbOf d log).insertError (.action (w.row actionId status scheduledAt)) = some e) :
    e = .integrity ∧ ∃ a ∈ (dbOf d log).actions, w.Of a := by
  have integrity : e = .integrity := by
    rw [Db.insertError, stored.1] at fails
    grind
  refine ⟨integrity, ?_⟩
  by_contra none
  push Not at none
  have unchanged : dbOf d log = d := by
    rcases creation_of_legal legal with ⟨same, -⟩ | ⟨b, own, -, -, put, -⟩
    · exact same
    · exact absurd own (none b (put ▸ Table.mem_put.2 (.inl rfl)))
  rw [unchanged] at fails none
  have insertable : Insertable d (.action (w.row actionId status scheduledAt)) := by
    refine ⟨stored.1, stored.2, fun k hk => ?_, references⟩
    simp only [Row.keys, List.mem_cons, List.not_mem_nil, or_false] at hk
    rcases hk with rfl | rfl | rfl
    · exact fresh
    · exact fun a ha key => none a ha (owned a ha key)
    · exact fun a ha own => none a ha own
  rw [insertError_eq_none.2 insertable] at fails
  cases fails

/-- The assumptions about `d`: the case is there, the attempt number is positive and fits its
column, and no row carries the canonical key of another attempt. -/
structure Wanted.Given (d : Db) (w : Wanted) : Prop where
  valid : d.Valid
  case : w.case ∈ d.cases
  positive : 0 < w.attemptNumber
  fits : integer w.attemptNumber
  owned : ∀ a ∈ d.actions, a.idempotencyKey = w.key → w.Of a

theorem Wanted.Given.stored (given : w.Given d) (actionId : Uuid) (status : RecoveryActionStatus)
    (scheduledAt : Option Time) : (Row.action (w.row actionId status scheduledAt)).Stored := by
  have key : varchar 128 w.key := varchar_recoveryActionIdempotencyKey _ _ given.fits
  exact ⟨by simp [Row.fits, Wanted.row, key, given.fits], decide_eq_true given.positive⟩

theorem Wanted.Given.references (given : w.Given d) (actionId : Uuid)
    (status : RecoveryActionStatus) (scheduledAt : Option Time) :
    d.references (.action (w.row actionId status scheduledAt)) := by
  have merchant := given.valid.references _ (Db.mem_rows_case.2 given.case)
  simp only [Db.references, Row.merchantId, Bool.and_eq_true] at merchant
  simp [Db.references, Row.merchantId, Wanted.row, merchant.1,
    show d.cases.get w.case.id = some w.case from
    Table.get_of_mem given.case]

/-- A call returns where a failed insert shows a row of its attempt that stays. -/
theorem wp_createRecoveryActionIdempotent_settled {C : Setting Stmt Db Row} {s : C.State}
    {action : RecoveryAction} {Q : RecoveryAction × Bool → List Row → C.State → Prop}
    {X : Err → List Row → C.State → Prop}
    (created : ∀ t, C.rely [] s t → (C.db t).Absent (.action action) →
      Q (action, true) [.action action] t)
    (existing : ∀ t a, C.rely [] s t → a ∈ (C.db t).actions → SameAttempt action a →
      Q (a, false) [] t)
    (settled : ∀ t u e,
      C.rely [] s t → C.rely [] t u → (C.db t).insertError (.action action) = some e →
      e = .integrity ∧ ∃ a ∈ (C.db u).actions, a.recoveryCaseId = action.recoveryCaseId ∧
      a.actionType = action.actionType ∧ a.attemptNumber = action.attemptNumber) :
    C.wp (createRecoveryActionIdempotent action) Q X [] s := by
  have byKey : ∀ t a, C.rely [] s t →
      (C.db t).actions.find (fun a => a.idempotencyKey = action.idempotencyKey) = some a →
        Q (a, false) [] t := by
    intro t a ht found
    obtain ⟨ha, key⟩ := Table.mem_of_find found
    exact existing t a ht ha (.inl (by simpa using key))
  rw [createRecoveryActionIdempotent, Setting.wp_bind]
  refine wp_selectAction fun t₁ h₁ => ?_
  split
  next a found => exact byKey t₁ a h₁ found
  next =>
    rw [Setting.wp_bind]
    refine wp_attempt_insert (fun t₂ h₂ _ ok => ?_) fun e t₂ h₂ _ fails => ?_
    · exact created t₂ (C.rely_trans h₁ h₂) ok.lacks
    · have h₁₂ := C.rely_trans h₁ h₂
      obtain ⟨rfl, -⟩ := settled t₂ t₂ e h₁₂ (C.rely_refl _ _) fails
      rw [Setting.wp_bind]
      refine wp_selectAction fun t₃ h₃ => ?_
      split
      next a found => exact byKey t₃ a (C.rely_trans h₁₂ h₃) found
      next =>
        rw [Setting.wp_bind]
        refine wp_selectAction fun t₄ h₄ => ?_
        split
        next a found =>
          obtain ⟨ha, same⟩ := Table.mem_of_find found
          exact existing t₄ a (C.rely_trans h₁₂ (C.rely_trans h₃ h₄)) ha
            (.inr (by simpa [and_assoc] using same))
        next missed =>
          -- The row that made the insert fail has stayed.
          obtain ⟨-, a, ha, same⟩ := settled t₂ t₄ _ h₁₂ (C.rely_trans h₃ h₄) fails
          have other := Table.find_eq_none.1 missed a ha
          simp [same] at other

/-- What a caller commits and knows. -/
theorem outline_callers (given : w.Given d) :
    Outline (w.callers d) d (Answered d w) (fun _ q _ => q.Sane d)
    (fun _ _ _ _ => False) where
  start {_ p _} _ starts _ := by
    cases p with
    | calling => exact Option.isNone_iff_eq_none.1 starts
    | returned | raised => cases starts
  stable _ sane _ _ := sane
  txn {pid p body abort log} env legal sane code := by
    cases p with
    | returned | raised => cases code
    | calling actionId status scheduledAt =>
      cases code
      refine (Setting.wp_bind _ _).2
        (wp_createRecoveryActionIdempotent_settled (fun t ht absent u hu => ?_)
        (fun t a ht ha same u hu => ?_) fun t u e ht hu fails => ?_)
      · exact ⟨⟨rfl, ⟨rfl, rfl, rfl⟩, rfl, absent.later (List.mem_singleton.2 rfl) hu⟩, trivial⟩
      · have legal' := Others.legal ht legal
        exact ⟨⟨rfl, of_taken legal' given.owned ha same,
          actions_of_suffix (Others.legal hu legal') (Others.suffix hu) ha⟩, trivial⟩
      · have legal' := Others.legal ht legal
        obtain ⟨rfl, a, ha, own⟩ := taken_of_fails legal' given.owned sane (given.stored _ _ _)
          (given.references _ _ _) fails
        exact ⟨rfl, a, actions_of_suffix (Others.legal hu legal') (Others.suffix hu) ha, own⟩
  fault _ _ _ raised := absurd raised Bool.false_ne_true
  call {_ p _ _ _} _ _ _ code := by
    cases p <;> cases code

/-- One row for the attempt, whoever called. -/
structure CreatedOnce (d : Db) (w : Wanted) (s : Run Stmt Stmt.Ans Db Err Caller Empty Row) :
    Prop where
  unraised : ∀ e, .idle (.raised e) ∉ s.threads
  once : s.log.countP creates ≤ 1
  first : (∀ a ∈ d.actions, ¬ w.Of a) → s.log ≠ [] → s.log.countP creates = 1
  answers : ∀ e ∈ s.log, ∃ pid p us a created, e = .commit pid p us (.returned a created) ∧
    a ∈ s.db.actions ∧
    w.Of a ∧ ∀ b ∈ s.db.actions, w.Of b → b = a
  others : s.db = d ∨ ∃ a, w.Of a ∧ d.actions.get a.id = none ∧ s.db = d.put (.action a)

/-- Two actions of a valid database with a key in common are one. -/
theorem Db.Valid.action_unique (valid : d.Valid) {a b : RecoveryAction} (ha : a ∈ d.actions)
    (hb : b ∈ d.actions) {k : Key} (hk : k ∈ (Row.action a).keys) (hk' : k ∈ (Row.action b).keys) :
    a = b := by
  have : Std.Symm fun r s : Row => ∀ k ∈ r.keys, k ∉ s.keys :=
    ⟨fun r s apart k hs hr => apart k hr hs⟩
  by_contra ne
  exact valid.unique.forall (Db.mem_rows_action.2 ha) (Db.mem_rows_action.2 hb)
    (by simpa using ne) k hk hk'

theorem Wanted.Given.unique (given : w.Given d) (legal : Legal (Answered d w) log)
    {a b : RecoveryAction} (ha : a ∈ (dbOf d log).actions) (hb : b ∈ (dbOf d log).actions)
    (own : w.Of a) (own' : w.Of b) : b = a := by
  have before : ∀ {a b}, a ∈ d.actions → b ∈ d.actions → w.Of a → w.Of b → b = a := by
    intro a b ha hb own own'
    have key : ∀ {x}, w.Of x →
        .attempt w.case.id w.actionType w.attemptNumber ∈ (Row.action x).keys := fun own => by
      simp [Row.keys, own.1, own.2.1, own.2.2]
    exact given.valid.action_unique hb ha (key own') (key own)
  rcases creation_of_legal legal with ⟨db, -⟩ | ⟨x, ownX, -, absent, db, -⟩ <;> rw [db] at ha hb
  · exact before ha hb own own'
  · have missing : ∀ y ∈ d.actions, ¬ w.Of y := by
      have free : d.lacks (.attempt x.recoveryCaseId x.actionType x.attemptNumber) :=
        absent _ (by simp [Row.keys])
      intro y hy ownY
      exact free y hy ⟨ownY.1.trans ownX.1.symm, ownY.2.1.trans ownX.2.1.symm,
        ownY.2.2.trans ownX.2.2.symm⟩
    have new : ∀ {y}, y ∈ d.actions.put x → w.Of y → y = x := fun hy ownY =>
      (Table.mem_put.1 hy).resolve_right fun old => missing _ old.1 ownY
    exact (new hb own').trans (new ha own).symm

theorem created_once (given : w.Given d) {s : Run Stmt Stmt.Ans Db Err Caller Empty Row}
    (run : (w.callers d).Reaches d s) : CreatedOnce d w s := by
  have ok := (outline_callers given).sound run
  have creation := creation_of_legal ok.legal
  have answers : ∀ e ∈ s.log, ∃ pid p us a created, e = .commit pid p us (.returned a created) ∧
      w.Of a ∧ a ∈ (dbOf d s.log).actions := fun e he => answer_of_mem ok.legal he
  refine { unraised := ?_, once := ?_, first := ?_, answers := ?_, others := ?_ }
  · intro e he
    obtain ⟨pid, hp⟩ := List.mem_iff_getElem?.1 he
    exact ok.threads hp
  · rcases creation with ⟨-, none⟩ | ⟨-, -, -, -, -, one⟩ <;> omega
  · intro new some
    rcases creation with ⟨same, -⟩ | ⟨-, -, -, -, -, one⟩
    · obtain ⟨e, he⟩ := List.exists_mem_of_ne_nil _ some
      obtain ⟨-, -, -, a, -, -, own, ha⟩ := answers e he
      exact absurd own (new a (same ▸ ha))
    · exact one
  · intro e he
    obtain ⟨pid, p, us, a, created, rfl, own, ha⟩ := answers e he
    rw [ok.db]
    exact ⟨pid, p, us, a, created, rfl, ha, own,
      fun b hb own' => given.unique ok.legal ha hb own own'⟩
  · rw [ok.db]
    rcases creation with ⟨same, -⟩ | ⟨a, own, -, absent, put, -⟩
    · exact .inl same
    · exact .inr ⟨a, own, absent (.action a.id) (by simp [Row.keys]), put⟩

end

/-! ## Sample runs -/

/-- The callers create a reminder for the case of `eligibleDb`. -/
def sampleWanted (attemptNumber : Int) : Wanted := ⟨sampleCase, .sendReminder, attemptNumber⟩

/-- A caller that draws the id `n`. -/
def sampleCaller (n : Nat) : Caller := .calling (.ofNat n) .pending none

/-- Both callers look for the row before either inserts it; the second one's insert fails on
the first one's commit. -/
def twoCallers : List (Nat × Move Err Caller Unit Empty) :=
  [(0, .spawn (sampleCaller 70)), (1, .spawn (sampleCaller 71)), (0, .enter ()), (1, .enter ()),
    (0, .exec), (1, .exec), (0, .exec), (0, .finish), (1, .exec), (1, .exec), (1, .finish)]

theorem created_once_sample :
    ∃ s, ((sampleWanted 1).callers eligibleDb).moves (.initial eligibleDb) twoCallers = some s ∧
    s.log.length = 2 ∧ CreatedOnce eligibleDb (sampleWanted 1) s := by
  have two : (((sampleWanted 1).callers eligibleDb).moves (.initial eligibleDb) twoCallers).map
      (fun s => s.log.length) =
      some 2 := by decide +kernel
  obtain ⟨s, run, two⟩ := Option.map_eq_some_iff.1 two
  have given : (sampleWanted 1).Given eligibleDb :=
    ⟨by decide +kernel, Table.mem_put.2 (.inl rfl), by decide, rfl, by decide +kernel⟩
  exact ⟨s, run, two, created_once given (.moves .refl run)⟩

/-- A caller finds no row, and its insert leaves the column's range. -/
def wideCaller : List (Nat × Move Err Caller Unit Empty) :=
  [(0, .spawn (sampleCaller 70)), (0, .enter ()), (0, .exec), (0, .exec), (0, .finish)]

/-- The caller's insert has been refused, its value out of the column's range. -/
def refusedAsWide : Thread Stmt Stmt.Ans Err Caller Row → Bool
  | .idle (.raised (.db .data)) => true
  | _ => false

theorem wide_attempt_raises :
    eligibleDb.Valid ∧ sampleCase ∈ eligibleDb.cases ∧ eligibleDb.actions.rows = [] ∧
    ∃ s, ((sampleWanted (2 ^ 31)).callers eligibleDb).Reaches eligibleDb s ∧
      .idle (.raised (.db .data)) ∈ s.threads := by
  have raised :
      (((sampleWanted (2 ^ 31)).callers eligibleDb).moves (.initial eligibleDb) wideCaller).map
        (fun s => s.threads.any refusedAsWide) = some true := by decide +kernel
  obtain ⟨s, run, raised⟩ := Option.map_eq_some_iff.1 raised
  obtain ⟨t, ht, raised⟩ := List.any_eq_true.1 raised
  refine ⟨by decide +kernel, Table.mem_put.2 (.inl rfl), rfl, s, .moves .refl run, ?_⟩
  unfold refusedAsWide at raised
  split at raised
  · exact ht
  · cases raised

end RecoverAI
