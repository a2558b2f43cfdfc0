import RecoverAI.Serial.Influence

/-!
# Tasks that report ignored

A normal return commits, so an eligible task that reports anything but `processed` must not have
written before. It has where it finds an action of the attempt it is about to record: the case
is in `ANALYSING` by then.
-/
namespace RecoverAI

open Store

section

variable [PyLib] (settings : Settings) (llm : Llm) (d : Db) (env : Draws) (outboxEventId : String)

/-- A task that reports another status than `processed` leaves cases, actions,
events and audits alone. -/
def IgnoredUnchanged : Prop :=
  ∀ result d', (processEligibleEvent settings llm env outboxEventId).run d = .ok (result, d') →
    Json.item result "status" ≠ .str "processed" →
      d'.cases = d.cases ∧ d'.actions = d.actions ∧ d'.outbox = d.outbox ∧ d'.audits = d.audits

/-- No action has the attempt or the key of the one the task is about to record. -/
def Unattempted : Prop :=
  ∀ case, CallsFor d outboxEventId case → integer (case.version + 1) →
    ∀ a ∈ d.actions, ¬ SameAttempt (newAction env case (chosenType settings llm d case)) a

variable {settings llm d env outboxEventId} {case : RecoveryCase}

/-- The case is in analysis when the task finds an action of the attempt. -/
theorem not_ignoredUnchanged (valid : d.Valid) (fresh : env.Fresh d)
    (calls : CallsFor d outboxEventId case) (room : integer (case.version + 1))
    (attempted : ∃ a ∈ d.actions,
      SameAttempt (newAction env case (chosenType settings llm d case)) a) :
    ¬ IgnoredUnchanged settings llm d env outboxEventId := by
  intro unchanged
  obtain ⟨source, outbox, parsed, -, -, hc, eligible⟩ := id calls
  have none : actionsOf (openedRows d env case) = [] := by
    simp [openedRows, newPolicies_tables, List.filterMap_cons, Row.action?]
  have run : (processEligibleEvent settings llm env outboxEventId).run d = _ :=
    run_eligible valid fresh parsed calls
  rw [if_pos room, run_recordAction_blocked none (selection_finalAction ▸ attempted)] at run
  obtain ⟨cases, -⟩ := unchanged _ _ run (by simp [Json.item, ignored])
  have written : (view d (openedRows d env case)).cases.get case.analysing.id =
      some case.analysing :=
    view_case_of_getLast? (by simp [openedRows, newPolicies_tables, Row.case?])
  rw [cases, show case.analysing.id = case.id from rfl, hc, Option.some.injEq] at written
  have status := congrArg RecoveryCase.status written
  rw [eligible] at status
  cases status

theorem ignored_unchanged_iff (valid : d.Valid) (fresh : env.Fresh d) :
    IgnoredUnchanged settings llm d env outboxEventId ↔
      Unattempted settings llm d env outboxEventId := by
  constructor
  · intro unchanged case calls room a ha same
    exact not_ignoredUnchanged valid fresh calls room ⟨a, ha, same⟩ unchanged
  · intro free result d' run other
    by_cases called : ∃ case, CallsFor d outboxEventId case
    · obtain ⟨case, calls⟩ := called
      obtain ⟨source, outbox, parsed, -, -, hc, -⟩ := id calls
      have run' : (processEligibleEvent settings llm env outboxEventId).run d = _ :=
        run_eligible valid fresh parsed calls
      cases room : integer (case.version + 1) with
      | false =>
        rw [room, if_neg Bool.false_ne_true, run] at run'
        cases run'
      | true =>
        have unattempted : ∀ a ∈ d.actions, ¬ SameAttempt
            (newAction env case (selection settings llm d case .analysing).finalAction) a :=
          @selection_finalAction _ settings llm d case ▸ free case calls room
        rw [room, if_pos rfl, run_recordAction valid fresh hc room unattempted, run] at run'
        -- What is recorded is reported as processed.
        split at run'
        · cases run'
          exact absurd rfl other
        · cases run'
    · obtain ⟨result', idle, -⟩ :=
        run_eligible_idle env settings llm fun case calls => called ⟨case, calls⟩
      rw [run] at idle
      cases idle
      exact ⟨rfl, rfl, rfl, rfl⟩

end

/-- `eligibleDb` after the case was stopped. -/
def stoppedDb : Db :=
  { eligibleDb with cases := .put .empty { sampleCase with status := .stopped, version := 5 } }

/-- The task reports that it ignored its event. -/
def reportsIgnored : Except Err (Fields × Db) → Bool
  | .ok (result, _) => match Json.item result "status" with
    | .str status => status = "ignored"
    | _ => false
  | .error _ => false

theorem ignored_unchanged_iff_sample :
    let _ : PyLib := .recorded []
    (∀ d ∈ [eligibleDb, stoppedDb],
      IgnoredUnchanged {} (fun _ => .error .expected) d (Env.numbered 2).draws (Uuid.ofNat 14).str ↔
        Unattempted {} (fun _ => .error .expected) d (Env.numbered 2).draws (Uuid.ofNat 14).str) ∧
    reportsIgnored ((processEligibleEvent {} (fun _ => .error .expected) (Env.numbered 2).draws
      (Uuid.ofNat 14).str).run stoppedDb) := by
  intro _
  refine ⟨fun d hd => ?_, by decide +kernel⟩
  rcases List.mem_pair.1 hd with rfl | rfl
  · exact ignored_unchanged_iff (by decide +kernel) (by decide +kernel)
  · exact ignored_unchanged_iff (by decide +kernel) (by decide +kernel)

/-- `eligibleDb` where the case already has a cancelled action of the first attempt. -/
def attemptedDb : Db :=
  { eligibleDb with
    actions := .put .empty
      { newAction (Env.numbered 1).draws sampleCase .createPaymentLink with status := .cancelled } }

/-- The task reports `action_already_exists` and leaves the case in `ANALYSING`. -/
theorem ignored_left_analysing : attemptedDb.Valid ∧
    ¬ @IgnoredUnchanged (.recorded []) {} (fun _ => .error .expected) attemptedDb
      (Env.numbered 2).draws (Uuid.ofNat 14).str := by
  let _ : PyLib := .recorded []
  have valid : attemptedDb.Valid := by decide +kernel
  have chosen : chosenType {} (fun _ => .error .expected) attemptedDb sampleCase =
      .createPaymentLink := by
    decide +kernel
  obtain ⟨id, outbox, found⟩ := eligibleDb_callsFor
  refine ⟨valid, not_ignoredUnchanged valid (by decide +kernel) ⟨id, outbox, found⟩ rfl
    ⟨_, Table.mem_put.2 (.inl rfl), ?_⟩⟩
  rw [chosen]
  exact .inr ⟨rfl, rfl, rfl⟩

end RecoverAI
