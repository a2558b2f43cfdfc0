import RecoverAI.Domain.PolicyLaws
import RecoverAI.Runs.Redelivery
import RecoverAI.Serial.Agreement

/-!
# Limits over runs

What the policy bounds is counted in the table of actions. A decision adds one action that the
policy has approved on these counts, and everything else takes actions out of them. So within fixed
limits no run leads beyond them, wherever it starts.
-/
namespace RecoverAI

open Store

/-- Outside `DENIED` and `CANCELLED`. -/
def RecoveryActionStatus.counted (s : RecoveryActionStatus) : Bool :=
  s ∉ excludedActionCountStatuses

/-- The actions of a case of some types and in some statuses. -/
def Db.tally (d : Db) (caseId : Uuid) (types : RecoveryActionType → Bool)
    (statuses : RecoveryActionStatus → Bool) : Nat :=
  d.actions.count fun a => a.recoveryCaseId = caseId && types a.actionType && statuses a.status

/-- What the limits allow of the actions that contact the customer. -/
structure CaseWithin (limits : PolicyLimits) (d : Db) (c : RecoveryCase) : Prop where
  contacts : d.tally c.id (·.executable) (·.counted) ≤ limits.maxActionsPerCase.toNat
  reminders : d.tally c.id (· = .sendReminder) (·.counted) ≤ limits.maxRemindersPerCase.toNat
  links : limits.oneActivePaymentLink →
    d.tally c.id (· = .createPaymentLink) (· ∈ activePaymentLinkStatuses) ≤ 1
  review : limits.highValueEscalationEnabled → limits.highValueThresholdMinor ≤ c.amountMinor →
    d.tally c.id (·.executable) (·.counted) = 0

def Db.WithinLimits (d : Db) : Prop := ∀ c ∈ d.cases, CaseWithin (limitsOf d c.merchantId) d c

/-- The foreign key of the actions. -/
def Db.Owned (d : Db) : Prop := ∀ a ∈ d.actions, ∃ c ∈ d.cases, c.id = a.recoveryCaseId

section

variable {d d' : Db} {c : RecoveryCase} {types : RecoveryActionType → Bool}
  {statuses : RecoveryActionStatus → Bool}

/-- How the actions change in a commit: some leave the counts, or one comes
that the policy approves. -/
inductive Tallied (d d' : Db) : Prop
  | fewer
      (acts : ∀ a' ∈ d'.actions, ∃ a ∈ d.actions,
        a.Same a' ∧ (a'.status.counted → a.status.counted) ∧
        (a'.status ∈ activePaymentLinkStatuses → a.status ∈ activePaymentLinkStatuses))
  | one (case : RecoveryCase) (new : RecoveryAction) (mem : case ∈ d.cases)
      (actions : d'.actions = d.actions.put new) (free : ∀ a ∈ d.actions, a.id ≠ new.id)
      (own : new.recoveryCaseId = case.id)
      (approval : new.actionType.executable → approves d case .analysing new.actionType)

theorem tally_le
    (acts : ∀ a' ∈ d'.actions, ∃ a ∈ d.actions,
      a.Same a' ∧ (statuses a'.status → statuses a.status)) (caseId : Uuid) :
    d'.tally caseId types statuses ≤ d.tally caseId types statuses := by
  refine Table.count_le_count fun a' ha' counts => ?_
  obtain ⟨a, ha, same, status⟩ := acts a' ha'
  simp only [Bool.and_eq_true, decide_eq_true_eq] at counts ⊢
  exact ⟨a, ha, same.id.symm, ⟨same.recoveryCaseId ▸ counts.1.1, same.actionType ▸ counts.1.2⟩,
    status counts.2⟩

theorem tally_put {new : RecoveryAction} (actions : d'.actions = d.actions.put new)
    (free : ∀ a ∈ d.actions, a.id ≠ new.id) (caseId : Uuid) : d'.tally caseId types statuses =
      d.tally caseId types statuses + if new.recoveryCaseId = caseId ∧ types new.actionType ∧
        statuses new.status
        then 1 else 0 := by
  unfold Db.tally
  rw [actions, Table.count_put_of_free free]
  simp only [Bool.and_eq_true, decide_eq_true_eq, and_assoc]

theorem tally_eq_zero (none : ∀ a ∈ d.actions, a.recoveryCaseId ≠ c.id) :
    d.tally c.id types statuses = 0 := by
  refine List.countP_eq_zero.2 fun a ha counts => none a ha ?_
  simp only [Bool.and_eq_true, decide_eq_true_eq] at counts
  exact counts.1.1

theorem caseWithin_of_none {limits : PolicyLimits}
    (none : ∀ a ∈ d.actions, a.recoveryCaseId ≠ c.id) : CaseWithin limits d c where
  contacts := tally_eq_zero none ▸ Nat.zero_le _
  reminders := tally_eq_zero none ▸ Nat.zero_le _
  links _ := tally_eq_zero none ▸ Nat.zero_le _
  review _ _ := tally_eq_zero none

/-- Actions that leave the counts leave room. -/
theorem CaseWithin.fewer {limits : PolicyLimits} (h : CaseWithin limits d c) {c' : RecoveryCase}
    (same : c.Same c')
    (acts : ∀ a' ∈ d'.actions, ∃ a ∈ d.actions, a.Same a' ∧ (a'.status.counted → a.status.counted) ∧
      (a'.status ∈ activePaymentLinkStatuses → a.status ∈ activePaymentLinkStatuses)) :
    CaseWithin limits d' c' := by
  have counted : ∀ types, d'.tally c.id types (·.counted) ≤ d.tally c.id types (·.counted) := by
    refine fun types => tally_le (fun a' ha' => ?_) c.id
    obtain ⟨a, ha, same, counted, -⟩ := acts a' ha'
    exact ⟨a, ha, same, counted⟩
  have active : ∀ types, d'.tally c.id types (· ∈ activePaymentLinkStatuses) ≤
      d.tally c.id types (· ∈ activePaymentLinkStatuses) := by
    refine fun types => tally_le (fun a' ha' => ?_) c.id
    obtain ⟨a, ha, same, -, active⟩ := acts a' ha'
    exact ⟨a, ha, same, by simpa using active⟩
  constructor
  all_goals rw [same.id]
  · exact (counted _).trans h.contacts
  · exact (counted _).trans h.reminders
  · exact fun one => (active _).trans (h.links one)
  · exact fun enabled reached =>
      Nat.le_zero.1 ((counted _).trans (h.review enabled (same.amountMinor ▸ reached)).le)

/-- An action that the policy approves has its place within the limits. -/
theorem CaseWithin.one (h : CaseWithin (limitsOf d c.merchantId) d c) (hc : c ∈ d.cases)
    {c' : RecoveryCase} (same : c.Same c') {case : RecoveryCase} {new : RecoveryAction}
    (mem : case ∈ d.cases) (actions : d'.actions = d.actions.put new)
    (free : ∀ a ∈ d.actions, a.id ≠ new.id) (own : new.recoveryCaseId = case.id)
    (approval : new.actionType.executable → approves d case .analysing new.actionType) :
    CaseWithin (limitsOf d c.merchantId) d' c' := by
  have tally : ∀ types statuses, d'.tally c.id types statuses = d.tally c.id types statuses +
      if new.recoveryCaseId = c.id ∧ types new.actionType ∧ statuses new.status then 1 else 0 :=
    fun _ _ => tally_put actions free c.id
  by_cases added : case.id = c.id ∧ new.actionType.executable
  · obtain ⟨here, executable⟩ := added
    obtain rfl : case = c := Table.eq_of_key mem hc here
    obtain ⟨bounds, unreminded, unlinked⟩ := evaluatePolicy_approved_iff.1 (approval executable)
    have total : d.tally case.id (·.executable) (·.counted) ≤
        d.actions.count (countedAction case.id none) := by
      refine Table.count_le_count fun a ha counts => ⟨a, ha, rfl, ?_⟩
      simp only [Bool.and_eq_true, RecoveryActionStatus.counted] at counts
      simp [countedAction, counts.1.1, counts.2]
    have reminders : d.tally case.id (· = .sendReminder) (·.counted) ≤
        d.actions.count fun a => countedAction case.id none a && a.actionType = .sendReminder := by
      refine Table.count_le_count fun a ha counts => ⟨a, ha, rfl, ?_⟩
      simp only [Bool.and_eq_true, RecoveryActionStatus.counted] at counts
      simp [countedAction, counts.1.1, counts.1.2, counts.2]
    have links : d.tally case.id (· = .createPaymentLink) (· ∈ activePaymentLinkStatuses) ≤
        d.actions.count (activeLink case.id none) := by
      refine Table.count_le_count fun a ha counts => ⟨a, ha, rfl, ?_⟩
      simp only [Bool.and_eq_true] at counts
      simp [activeLink, counts.1.1, counts.1.2, counts.2]
    have low := bounds.low
    have room := bounds.room
    simp only [policyInput] at room
    constructor
    all_goals rw [same.id, tally]
    · split <;> omega
    · split
      next adds =>
        have reminder : new.actionType = .sendReminder := by simpa using adds.2.1
        have room : ¬ (limitsOf d case.merchantId).maxRemindersPerCase ≤
            (d.actions.count fun a => countedAction case.id none a &&
              a.actionType = .sendReminder : Nat) :=
          fun used => unreminded ⟨reminder, used⟩
        omega
      next => exact h.reminders
    · intro one
      split
      next adds =>
        have link : new.actionType = .createPaymentLink := by simpa using adds.2.1
        have none : ¬ (0 : Int) < (d.actions.count (activeLink case.id none) : Nat) :=
          fun pending => unlinked ⟨link, one, pending⟩
        omega
      next => exact h.links one
    · intro enabled reached
      have contact : new.actionType ∉ [RecoveryActionType.escalate, .stop] := by
        revert executable
        cases new.actionType <;> decide
      have reached : (limitsOf d case.merchantId).highValueThresholdMinor ≤ case.amountMinor :=
        same.amountMinor ▸ reached
      exact absurd ⟨enabled, reached, contact⟩ low
  · have stays : ∀ {types : RecoveryActionType → Bool} {statuses},
        (∀ type, types type → type.executable) →
        d'.tally c.id types statuses = d.tally c.id types statuses := by
      intro types statuses contacts
      rw [tally, if_neg, Nat.add_zero]
      rintro ⟨here, type, -⟩
      exact added ⟨own.symm.trans here, contacts _ type⟩
    constructor
    all_goals rw [same.id]
    · rw [stays fun _ => id]
      exact h.contacts
    · rw [stays fun type reminder => (of_decide_eq_true reminder : type = .sendReminder) ▸ rfl]
      exact h.reminders
    · rw [stays fun type link => (of_decide_eq_true link : type = .createPaymentLink) ▸ rfl]
      exact h.links
    · rw [stays fun _ => id, same.amountMinor]
      exact h.review

/-- A row of the cases after a commit is a row of before, or the id is new. -/
theorem Db.Grows.case_or (grows : d.Grows d') {c' : RecoveryCase} (hc' : c' ∈ d'.cases) :
    (∃ c ∈ d.cases, c.Same c') ∨ ∀ c ∈ d.cases, c.id ≠ c'.id := by
  by_cases known : ∃ c ∈ d.cases, c.id = c'.id
  · obtain ⟨c, hc, id⟩ := known
    obtain ⟨c'', hc'', same⟩ := grows.cases c hc
    obtain rfl : c'' = c' := Table.eq_of_key hc'' hc' (same.id.trans id)
    exact .inl ⟨c, hc, same⟩
  · exact .inr fun c hc id => known ⟨c, hc, id⟩

theorem Tallied.owned (h : Tallied d d') (owned : d.Owned) (grows : d.Grows d') : d'.Owned := by
  intro a' ha'
  have known : ∃ c ∈ d.cases, c.id = a'.recoveryCaseId := by
    cases h with
    | fewer acts =>
      obtain ⟨a, ha, same, -⟩ := acts a' ha'
      exact same.recoveryCaseId ▸ owned a ha
    | one case new mem actions free own =>
      rcases Table.mem_put.1 (actions ▸ ha') with rfl | ⟨old, -⟩
      · exact ⟨case, mem, own.symm⟩
      · exact owned a' old
  obtain ⟨c, hc, id⟩ := known
  obtain ⟨c', hc', same⟩ := grows.cases c hc
  exact ⟨c', hc', same.id.trans id⟩

theorem Tallied.within (h : Tallied d d') (within : d.WithinLimits) (owned : d.Owned)
    (grows : d.Grows d') (limits : limitsOf d' = limitsOf d) : d'.WithinLimits := by
  intro c' hc'
  rw [limits]
  rcases grows.case_or hc' with ⟨c, hc, same⟩ | new
  · rw [same.merchantId]
    cases h with
    | fewer acts => exact (within c hc).fewer same acts
    | one case new mem actions free own approval =>
      exact (within c hc).one hc same mem actions free own approval
  · refine caseWithin_of_none fun a' ha' own => ?_
    cases h with
    | fewer acts =>
      obtain ⟨a, ha, same, -⟩ := acts a' ha'
      obtain ⟨c, hc, id⟩ := owned a ha
      exact new c hc (id.trans (same.recoveryCaseId.symm.trans own))
    | one case added mem actions free owner =>
      rcases Table.mem_put.1 (actions ▸ ha') with rfl | ⟨old, -⟩
      · exact new case mem (owner.symm.trans own)
      · obtain ⟨c, hc, id⟩ := owned a' old
        exact new c hc (id.trans own)

/-! ## Commits -/

/-- A policy that a transaction adds has the limits that count without it. -/
theorem PolicyRows.limits {newId merchantId : Uuid} {ps us : List Row}
    (h : PolicyRows d newId merchantId ps) (same : policiesOf us = policiesOf ps) :
    limitsOf (view d us) = limitsOf d := by
  have policies : (view d us).policies = d.policies.putAll (policiesOf ps) := by
    rw [view_policies, same]
  rcases h with rfl | ⟨rfl, absent⟩
  · exact limitsOf_congr policies
  · have free : ∀ p ∈ d.policies, Store.key p ≠ Store.key (defaultPolicy newId merchantId) :=
      Table.get_eq_none.1 (absent (.policy newId) (by simp [Row.keys, defaultPolicy]))
    have rows : (view d us).policies.rows = d.policies.rows ++ [defaultPolicy newId merchantId] :=
      (congrArg Table.rows policies).trans (Table.upsert_of_free free)
    funext other
    simp only [limitsOf, Table.find, rows, List.find?_append]
    cases d.policies.rows.find? (·.merchantId = other) with
    | some policy => rfl
    | none =>
      by_cases own : merchantId = other
      · subst own
        simp [defaultPolicy, policyLimitsFrom]
      · simp [defaultPolicy, own]

end

section

variable {T : Type} {db : T → Db} {R : List Row → T → T → Prop} {allows : Db → Stmt → Prop} {t : T}
  {settings : Settings} {env : Draws} {us : List Row}

theorem WritesPayment.policies {merchantId : Uuid} {id : String} {new payment : Payment}
    {update : Payment → Payment} {prs : List Row}
    (h : WritesPayment db R merchantId id new update payment prs t) : policiesOf prs = [] := by
  cases h <;> rfl

theorem Ensures.policies {event : OutboxEvent} {ors : List Row} (h : Ensures db R event ors t) :
    policiesOf ors = [] := by
  cases h <;> rfl

theorem Moves.policies {new : RecoveryCaseStatus} {case : RecoveryCase} {rows : List Row}
    (h : Moves db R new case rows t) : policiesOf rows = [] := by
  cases h <;> rfl

/-- A webhook adds no policy. -/
theorem WebhookEffect.policies [PyLib] {request : Request} {response : Response}
    (h : WebhookEffect db R env allows settings request response us t) : policiesOf us = [] := by
  cases h with
  | rejected => rfl
  | recorded _ _ _ _ effect =>
    cases effect with
    | ignored => rfl
    | failed _ _ effect =>
      cases effect with
      | captured => rfl
      | known pay => simp [List.filterMap_cons, Row.policy?, pay.policies]
      | created pay _ _ event | activated pay _ _ _ _ event =>
        simp [List.filterMap_cons, Row.policy?, pay.policies, event.policies]
    | captured _ _ effect =>
      cases effect with
      | noCase pay | terminal pay => simp [List.filterMap_cons, Row.policy?, pay.policies]
      | recovered pay _ _ _ event =>
        simp [List.filterMap_cons, Row.policy?, pay.policies, event.policies, Function.comp_def]

end

section

variable [PyLib] {settings : Settings} {allows : Db → Stmt → Prop} {d d' : Db} {p q : Process}
  {us : List Row}

/-- No transaction changes the limits of a merchant. -/
theorem Commits.limits (h : Commits id World.Alone settings allows p us q d) :
    limitsOf (view d us) = limitsOf d := by
  have quiet : policiesOf us = [] → limitsOf (view d us) = limitsOf d := fun none =>
    (show PolicyRows d default default [] from .none default).limits none
  cases h with
  | task | unnamed => rfl
  | webhook effect => exact quiet effect.policies
  | eligible effect =>
    cases effect with
    | idle => rfl
    | blocked taken => exact taken.policy.limits (by simp [List.filterMap_cons, Row.policy?])
    | processed taken =>
      exact taken.policy.limits
        (by simp [decisionRows, List.filterMap_cons, Row.policy?, scheduledRows_policies])
  | claim named effect =>
    cases effect with
    | refused policy => exact policy.limits rfl
    | cancelled held stop =>
      exact held.policy.limits (by simp [List.filterMap_cons, Row.policy?, stop.policies])
    | claimed held => exact held.policy.limits (by simp [List.filterMap_cons, Row.policy?])
  | success effect =>
    cases effect with
    | idle => rfl
    | executed _ _ moves => exact quiet (by simp [List.filterMap_cons, Row.policy?, moves.policies])
  | failure effect => cases effect <;> exact quiet rfl

/-- A move of an action takes it out of the counts or leaves it there. -/
theorem Acts.fewer {a a' : RecoveryAction} (h : Acts p q a a') :
    (a'.status.counted → a.status.counted) ∧
    (a'.status ∈ activePaymentLinkStatuses → a.status ∈ activePaymentLinkStatuses) := by
  cases h with
  | kept same => exact same ▸ ⟨id, id⟩
  | cancelled _ after =>
    rw [after]
    exact ⟨nofun, fun active => absurd active (by decide)⟩
  | claimed _ _ before after =>
    rw [before, after]
    decide
  | finalized _ _ before after =>
    rcases after with after | after <;> rw [before, after] <;> decide

theorem tallied_of_run {body : Env → Tx Process} {abort : Err → Process} {env : Env}
    (code : p.act settings = .txn body abort) (run : (body env).run d = .ok (q, d')) :
    Tallied d d' := by
  have same : d'.actions = d.actions → Tallied d d' := fun eq =>
    .fewer fun a ha => ⟨a, eq ▸ ha, .refl a, id, id⟩
  cases p with
  | eligible job =>
    cases code
    obtain ⟨result, d₁, decided, done⟩ := run_bind_eq_ok.1 run
    cases done
    cases processEligibleEvent_ok decided with
    | idle => exact same rfl
    | @acted case _ _ source calls known records =>
      obtain ⟨_, _, _, _, _, here, -⟩ := calls
      cases records with
      | blocked =>
        obtain ⟨-, noActions, -, -⟩ := newPolicies_tables d env.draws.policyId case.merchantId
        exact same (by simp [openedRows, List.filterMap_cons, Row.action?, noActions])
      | decided action =>
        refine .one case
          (newAction env.draws case (selection settings env.llm d case .analysing).finalAction)
          (Table.get_eq_some.1 here).1 (decisionRows_changes ..).actions
            (Table.get_eq_none.1 action.action) rfl
          fun executable => ?_
        have chosen :
            (newAction env.draws case
              (selection settings env.llm d case .analysing).finalAction).actionType =
            chosenType settings env.llm d case := selection_finalAction
        rw [chosen] at executable ⊢
        exact approves_chosenType executable
  | _ =>
    refine .fewer fun a' ha' => ?_
    rcases World.acts_of_run code run a' ha' with ⟨a, ha, same, acts⟩ | ⟨⟨job, is⟩, -⟩
    · exact ⟨a, ha, same, acts.fewer⟩
    · cases is

end

/-! ## Runs -/

/-- The turn leaves the policies alone. -/
def Turn.fixed : Turn → Bool
  | .limits _ => false
  | _ => true

section

variable [PyLib] {settings : Settings} {u v w : World} {turn : Turn}

theorem World.Does.within (does : Does settings w turn v) (fixed : turn.fixed)
    (within : w.db.WithinLimits) (owned : w.db.Owned) : v.db.WithinLimits ∧ v.db.Owned := by
  have grows := does.grows
  cases does with
  | @commit _ _ _ _ _ q d at_ code clock run =>
    have tallied := tallied_of_run code run
    have limits : limitsOf d = limitsOf w.db := by
      obtain ⟨us, eq, commits⟩ := commits_of_run code run
      exact eq ▸ commits.limits
    exact ⟨tallied.within within owned grows limits, tallied.owned owned grows⟩
  | limits => cases fixed
  | dispatched =>
    refine ⟨Tallied.within ?_ within owned grows rfl, owned⟩
    exact .fewer fun a ha => ⟨a, ha, .refl a, id, id⟩
  | _ => exact ⟨within, owned⟩

/-- While the policies stay as they are, no run leads a case beyond its limits,
wherever the run starts. -/
theorem limits_kept (within : u.db.WithinLimits) (owned : u.db.Owned) {turns : List Turn}
    (fixed : ∀ turn ∈ turns, turn.fixed) (run : u.run settings turns = some v) :
    v.db.WithinLimits := by
  induction turns generalizing u with
  | nil =>
    cases run
    exact within
  | cons turn turns ih =>
    obtain ⟨w, move, run⟩ := Option.bind_eq_some_iff.1 run
    obtain ⟨within, owned⟩ :=
      (World.next_does move).within (fixed turn (List.mem_cons_self ..)) within owned
    exact ih within owned (fun turn mem => fixed turn (List.mem_cons_of_mem _ mem)) run

end

theorem limits_kept_sample :
    ∃ w, @World.run (.recorded [expiredInstrument]) {} sampleWorld decideTurns = some w ∧
    (w.db.cases.rows.any fun c => c.status = .actionScheduled) ∧ w.db.WithinLimits := by
  let _ : PyLib := .recorded [expiredInstrument]
  obtain ⟨w, -, -, -, -, -, run, -, -, -, -, -, waits, -⟩ := linkRun
  exact ⟨w, run, waits, limits_kept (u := sampleWorld) (fun c hc => absurd hc List.not_mem_nil)
    (fun a ha => absurd ha List.not_mem_nil) (by decide) run⟩

end RecoverAI
