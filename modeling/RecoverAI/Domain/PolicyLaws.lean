import RecoverAI.Domain.Policy

/-!
# Laws of the policy

How the rules of `evaluatePolicy` overlap: what happens when the policy is asked about its own
answer, and when it is asked under stricter limits.
-/
namespace RecoverAI

variable {limits limits' : PolicyLimits} {input input' : PolicyInput} {delay delay' : Option Rat}

/-! ## The policy's own answer -/

/-- The amount calls for a review of the candidate. -/
def HighValue (limits : PolicyLimits) (input : PolicyInput) : Prop :=
  limits.highValueEscalationEnabled ∧ limits.highValueThresholdMinor ≤ input.amountMinor ∧
    input.candidateAction ∉ [RecoveryActionType.escalate, .stop]

/-- A review is what the policy asks for first. -/
theorem evaluatePolicy_highValue (active : input.caseStatus.isTerminal = false)
    (high : HighValue limits input) :
    (evaluatePolicy limits input delay).finalAction = .escalate := by
  obtain ⟨enabled, reached, contact⟩ := high
  simp [evaluatePolicy, active, enabled, reached, contact]

/-- Asked about the review itself, the policy counts the actions. -/
theorem evaluatePolicy_escalate (active : input.caseStatus.isTerminal = false)
    (candidate : input.candidateAction = .escalate) :
    (evaluatePolicy limits input delay).finalAction =
      if limits.maxActionsPerCase ≤ input.totalActionCount then .stop else .escalate := by
  by_cases used : limits.maxActionsPerCase ≤ input.totalActionCount <;>
    simp [evaluatePolicy, active, candidate, used]

/-- Where no review is called for, the policy stands by its answer. -/
theorem evaluatePolicy_again (active : input.caseStatus.isTerminal = false)
    (low : ¬ HighValue limits input) :
    (evaluatePolicy limits
      { input with candidateAction := (evaluatePolicy limits input delay).finalAction }
      delay').finalAction = (evaluatePolicy limits input delay).finalAction := by
  unfold HighValue at low
  unfold evaluatePolicy
  simp only [active]
  cases candidate : input.candidateAction <;> grind

/-- The policy stands by its answer unless it asked for a review of a case that has used up its
actions; then it asks to stop. -/
theorem fallback_permitted_iff (active : input.caseStatus.isTerminal = false) :
    ((evaluatePolicy limits
      { input with candidateAction := (evaluatePolicy limits input delay).finalAction }
      delay').finalAction = (evaluatePolicy limits input delay).finalAction ↔
      ¬ (HighValue limits input ∧ limits.maxActionsPerCase ≤ input.totalActionCount)) ∧
    (HighValue limits input ∧ limits.maxActionsPerCase ≤ input.totalActionCount →
      (evaluatePolicy limits input delay).finalAction = .escalate ∧
      (evaluatePolicy limits { input with candidateAction := .escalate } delay').finalAction =
        .stop) := by
  have asked := @evaluatePolicy_escalate limits
    { input with candidateAction := .escalate } delay' active rfl
  by_cases high : HighValue limits input
  · rw [evaluatePolicy_highValue active high, asked]
    by_cases used : limits.maxActionsPerCase ≤ input.totalActionCount <;> simp [high, used]
  · have again := @evaluatePolicy_again limits input delay delay' active high
    exact ⟨iff_of_true again fun both => high both.1, fun both => absurd both.1 high⟩

/-- A high-value payment link of a case with two of two actions: a review is
asked for, and then refused. -/
def usedUpInput : PolicyInput := ⟨.analysing, 600000, .createPaymentLink, 2, 0, 0⟩

def twoActions : PolicyLimits := ⟨2, 2, true, true, 500000⟩

theorem fallback_permitted_iff_sample :
    ((evaluatePolicy twoActions { usedUpInput with
      candidateAction :=
        (evaluatePolicy twoActions usedUpInput none).finalAction } none).finalAction =
        (evaluatePolicy twoActions usedUpInput none).finalAction ↔
      ¬ (HighValue twoActions usedUpInput ∧
        twoActions.maxActionsPerCase ≤ usedUpInput.totalActionCount)) ∧
    (HighValue twoActions usedUpInput ∧
      twoActions.maxActionsPerCase ≤ usedUpInput.totalActionCount →
      (evaluatePolicy twoActions usedUpInput none).finalAction = .escalate ∧
      (evaluatePolicy twoActions { usedUpInput with candidateAction := .escalate }
        none).finalAction = .stop) :=
  fallback_permitted_iff rfl

/-- The review is refused in favour of `STOP`. -/
theorem review_refused :
    ¬ ∀ (limits : PolicyLimits) (input : PolicyInput) (delay delay' : Option Rat),
    input.caseStatus.isTerminal = false → (evaluatePolicy limits { input with
      candidateAction := (evaluatePolicy limits input delay).finalAction } delay').finalAction =
        (evaluatePolicy limits input delay).finalAction := by
  intro permitted
  have same := permitted twoActions usedUpInput none none rfl
  revert same
  decide

/-! ## Stricter limits -/

/-- How much an action asks of the customer. -/
def RecoveryActionType.intrusiveness : RecoveryActionType → Nat
  | createPaymentLink | sendReminder => 2
  | wait => 1
  | stop | escalate => 0

/-- The second question about a candidate is at least as strict as the first one. -/
structure Stricter (limits : PolicyLimits) (input : PolicyInput) (limits' : PolicyLimits)
    (input' : PolicyInput) : Prop where
  candidate : input'.candidateAction = input.candidateAction
  status : input.caseStatus.isTerminal → input'.caseStatus.isTerminal
  amount : input.amountMinor ≤ input'.amountMinor
  total : input.totalActionCount ≤ input'.totalActionCount
  reminders : input.reminderCount ≤ input'.reminderCount
  links : input.activePaymentLinkCount ≤ input'.activePaymentLinkCount
  maxActions : limits'.maxActionsPerCase ≤ limits.maxActionsPerCase
  maxReminders : limits'.maxRemindersPerCase ≤ limits.maxRemindersPerCase
  threshold : limits'.highValueThresholdMinor ≤ limits.highValueThresholdMinor
  escalation : limits.highValueEscalationEnabled → limits'.highValueEscalationEnabled
  oneLink : limits.oneActivePaymentLink → limits'.oneActivePaymentLink

/-- The rules about the case itself let the candidate pass. -/
structure WithinBounds (limits : PolicyLimits) (input : PolicyInput) : Prop where
  active : input.caseStatus.isTerminal = false
  low : ¬ HighValue limits input
  room : input.totalActionCount < limits.maxActionsPerCase

/-- There is no room for another reminder. -/
def Reminded (limits : PolicyLimits) (input : PolicyInput) : Prop :=
  input.candidateAction = .sendReminder ∧ limits.maxRemindersPerCase ≤ input.reminderCount

/-- Another payment link is active. -/
def LinkPending (limits : PolicyLimits) (input : PolicyInput) : Prop :=
  input.candidateAction = .createPaymentLink ∧ limits.oneActivePaymentLink ∧
    0 < input.activePaymentLinkCount

namespace Stricter

theorem highValue (stricter : Stricter limits input limits' input') (h : HighValue limits input) :
    HighValue limits' input' := by
  obtain ⟨enabled, reached, contact⟩ := h
  have threshold := stricter.threshold
  have amount := stricter.amount
  exact ⟨stricter.escalation enabled, by omega, stricter.candidate ▸ contact⟩

theorem withinBounds (stricter : Stricter limits input limits' input')
    (h : WithinBounds limits' input') : WithinBounds limits input where
  active := by
    cases terminal : input.caseStatus.isTerminal with
    | false => rfl
    | true => exact (stricter.status terminal).symm.trans h.active
  low := fun high => h.low (stricter.highValue high)
  room := by
    have room := h.room
    have total := stricter.total
    have maxActions := stricter.maxActions
    omega

theorem reminded (stricter : Stricter limits input limits' input') (h : Reminded limits input) :
    Reminded limits' input' := by
  obtain ⟨candidate, used⟩ := h
  have reminders := stricter.reminders
  have maxReminders := stricter.maxReminders
  exact ⟨stricter.candidate.trans candidate, by omega⟩

theorem linkPending (stricter : Stricter limits input limits' input')
    (h : LinkPending limits input) : LinkPending limits' input' := by
  obtain ⟨candidate, one, pending⟩ := h
  have links := stricter.links
  exact ⟨stricter.candidate.trans candidate, stricter.oneLink one, by omega⟩

end Stricter

/-- The policy approves what no rule objects to. -/
theorem evaluatePolicy_approved_iff : (evaluatePolicy limits input delay).approved ↔
    WithinBounds limits input ∧ ¬ Reminded limits input ∧ ¬ LinkPending limits input := by
  rw [show WithinBounds limits input ↔
    input.caseStatus.isTerminal = false ∧ ¬ HighValue limits input ∧
    input.totalActionCount < limits.maxActionsPerCase from
    ⟨fun h => ⟨h.active, h.low, h.room⟩, fun ⟨active, low, room⟩ => ⟨active, low, room⟩⟩]
  unfold evaluatePolicy HighValue Reminded LinkPending
  grind

/-- Beside what the policy approves, only the wait for another payment
link does not end the case. -/
theorem evaluatePolicy_denied (denied : (evaluatePolicy limits input delay).approved = false) :
    (evaluatePolicy limits input delay).finalAction.intrusiveness ≤ 1 ∧
      (0 < (evaluatePolicy limits input delay).finalAction.intrusiveness ↔
        WithinBounds limits input ∧ LinkPending limits input) := by
  have bounds : WithinBounds limits input ↔
      input.caseStatus.isTerminal = false ∧ ¬ HighValue limits input ∧
      input.totalActionCount < limits.maxActionsPerCase :=
    ⟨fun h => ⟨h.active, h.low, h.room⟩, fun ⟨active, low, room⟩ => ⟨active, low, room⟩⟩
  rw [bounds]
  unfold HighValue LinkPending
  unfold evaluatePolicy at denied ⊢
  dsimp only at denied ⊢
  split_ifs at denied ⊢ with terminal high used reminded pending wait
  -- Every rule but the last one ends the case.
  · exact ⟨Nat.zero_le _, nofun, fun h => absurd (terminal.symm.trans h.1.1) (by decide)⟩
  · exact ⟨Nat.zero_le _, nofun, fun h => absurd high h.1.2.1⟩
  · exact ⟨Nat.zero_le _, nofun, fun h => absurd h.1.2.2 (Int.not_lt.2 used)⟩
  · exact ⟨Nat.zero_le _, nofun, fun h => absurd (reminded.1.symm.trans h.2.1) (by decide)⟩
  · have active : input.caseStatus.isTerminal = false := by simpa using terminal
    exact ⟨Nat.le_refl _, fun _ => ⟨⟨active, high, Int.not_le.1 used⟩, pending⟩,
      fun _ => Nat.zero_lt_one⟩

/-- Under stricter limits the policy approves no more, and its answer asks
no more of the customer. -/
theorem policy_monotone (stricter : Stricter limits input limits' input') :
    ((evaluatePolicy limits' input' delay').approved →
      (evaluatePolicy limits input delay).approved ∧
      (evaluatePolicy limits input delay).finalAction =
        (evaluatePolicy limits' input' delay').finalAction) ∧
    (evaluatePolicy limits' input' delay').finalAction.intrusiveness ≤
      (evaluatePolicy limits input delay).finalAction.intrusiveness := by
  have keeps : (evaluatePolicy limits' input' delay').approved →
      (evaluatePolicy limits input delay).approved ∧
      (evaluatePolicy limits input delay).finalAction =
        (evaluatePolicy limits' input' delay').finalAction := by
    intro approved'
    obtain ⟨bounds, reminders, links⟩ := evaluatePolicy_approved_iff.1 approved'
    have approved : (evaluatePolicy limits input delay).approved := evaluatePolicy_approved_iff.2
      ⟨stricter.withinBounds bounds, mt stricter.reminded reminders, mt stricter.linkPending links⟩
    refine ⟨approved, ?_⟩
    rw [evaluatePolicy_approved approved, evaluatePolicy_approved approved', stricter.candidate]
  refine ⟨keeps, ?_⟩
  cases approved' : (evaluatePolicy limits' input' delay').approved with
  | true => exact (keeps approved').2 ▸ Nat.le_refl _
  | false =>
    obtain ⟨least, waits⟩ := evaluatePolicy_denied approved'
    by_contra rises
    rw [Nat.not_le] at rises
    -- The stricter answer is to wait for a payment link, so the first one was about a payment link
    -- too.
    obtain ⟨bounds, candidate, one, pending⟩ := waits.1 (by omega)
    have bounds := stricter.withinBounds bounds
    have candidate := stricter.candidate.symm.trans candidate
    cases approved : (evaluatePolicy limits input delay).approved with
    | true =>
      rw [evaluatePolicy_approved approved, candidate] at rises
      have most : RecoveryActionType.createPaymentLink.intrusiveness = 2 := rfl
      omega
    | false =>
      have reminders : ¬ Reminded limits input := fun h => by
        rw [h.1] at candidate
        cases candidate
      have links : LinkPending limits input := by
        by_contra links
        rw [evaluatePolicy_approved_iff.2 ⟨bounds, reminders, links⟩] at approved
        cases approved
      have := (evaluatePolicy_denied approved).2.2 ⟨bounds, links⟩
      omega

theorem policy_monotone_sample :
    ((evaluatePolicy twoActions usedUpInput none).approved →
      (evaluatePolicy ⟨3, 2, false, false, 500000⟩
        ⟨.eligible, 5000, .createPaymentLink, 1, 0, 0⟩ none).approved ∧
      (evaluatePolicy ⟨3, 2, false, false, 500000⟩
        ⟨.eligible, 5000, .createPaymentLink, 1, 0, 0⟩ none).finalAction =
        (evaluatePolicy twoActions usedUpInput none).finalAction) ∧
    (evaluatePolicy twoActions usedUpInput none).finalAction.intrusiveness ≤
      (evaluatePolicy ⟨3, 2, false, false, 500000⟩
        ⟨.eligible, 5000, .createPaymentLink, 1, 0, 0⟩ none).finalAction.intrusiveness :=
  policy_monotone ⟨rfl, nofun,
    by decide, by decide, by decide, by decide, by decide, by decide, by decide, nofun, nofun⟩

end RecoverAI
