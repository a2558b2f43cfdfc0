import RecoverAI.Domain.PolicyLaws
import RecoverAI.Serial.Influence

/-!
# Limits per case

What the counts of the policy's input say about the actions of a case: the policy holds a payment
link back while another one is in flight. A link that was issued is no longer in flight.
-/
namespace RecoverAI

open Store

variable {d : Db} {case : RecoveryCase} {status : RecoveryCaseStatus} {exclude : Option Uuid}
  {limits : PolicyLimits}

/-! ## Payment links -/

/-- A payment link of the case beside the excluded action. -/
def OtherLink (case : RecoveryCase) (exclude : Option Uuid) (a : RecoveryAction) : Prop :=
  a.recoveryCaseId = case.id ∧ a.actionType = .createPaymentLink ∧ some a.id ≠ exclude

/-- Its link is on the way to the customer. -/
def LinkInFlight (d : Db) (case : RecoveryCase) (exclude : Option Uuid) : Prop :=
  ∃ a ∈ d.actions, OtherLink case exclude a ∧
    a.status ∈ [RecoveryActionStatus.pending, .approved, .executing]

/-- The customer has its link. -/
def LinkIssued (d : Db) (case : RecoveryCase) (exclude : Option Uuid) : Prop :=
  ∃ a ∈ d.actions, OtherLink case exclude a ∧ a.status = .executed

/-- The policy approves a payment link for the case only where there is no other one. -/
def OneLiveLink (limits : PolicyLimits) (d : Db) (case : RecoveryCase) (status : RecoveryCaseStatus)
    (exclude : Option Uuid) : Prop :=
  ∀ input d' delay, (buildPolicyInput case .createPaymentLink status exclude).run d =
    .ok (input, d') →
    (evaluatePolicy limits input delay).approved →
    ¬ LinkInFlight d case exclude ∧ ¬ LinkIssued d case exclude

theorem activeLink_iff (a : RecoveryAction) : activeLink case.id exclude a ↔
    OtherLink case exclude a ∧
      a.status ∈ [RecoveryActionStatus.pending, .approved, .executing] := by
  simp only [activeLink, Bool.and_eq_true, decide_eq_true_eq]
  exact ⟨fun ⟨⟨⟨own, link⟩, active⟩, other⟩ => ⟨⟨own, link, other⟩, active⟩,
    fun ⟨⟨own, link, other⟩, active⟩ => ⟨⟨⟨own, link⟩, active⟩, other⟩⟩

theorem links_pos_iff {candidate : RecoveryActionType} :
    0 < (policyInput d case candidate status exclude).activePaymentLinkCount ↔
      LinkInFlight d case exclude := by
  have counted : 0 < d.actions.count (activeLink case.id exclude) ↔
      ∃ a ∈ d.actions, activeLink case.id exclude a :=
    List.countP_pos_iff
  simp only [policyInput, Int.natCast_pos, counted, LinkInFlight, activeLink_iff]

/-- What holds a payment link back, beside the end of the case. -/
def LinkRefused (limits : PolicyLimits) (d : Db) (case : RecoveryCase) (exclude : Option Uuid) :
    Prop :=
  (limits.highValueEscalationEnabled ∧ limits.highValueThresholdMinor ≤ case.amountMinor) ∨
    limits.maxActionsPerCase ≤ d.actions.count (countedAction case.id exclude) ∨
      LinkInFlight d case exclude

theorem approved_link_iff (active : status.isTerminal = false) (one : limits.oneActivePaymentLink)
    (delay : Option Rat) :
    (evaluatePolicy limits (policyInput d case .createPaymentLink status exclude) delay).approved ↔
      ¬ LinkRefused limits d case exclude := by
  have low : HighValue limits (policyInput d case .createPaymentLink status exclude) ↔
      limits.highValueEscalationEnabled ∧ limits.highValueThresholdMinor ≤ case.amountMinor :=
    ⟨fun h => ⟨h.1, h.2.1⟩,
      fun h => ⟨h.1, h.2, show RecoveryActionType.createPaymentLink ∉ _ by decide⟩⟩
  have pending : LinkPending limits (policyInput d case .createPaymentLink status exclude) ↔
      LinkInFlight d case exclude := by
    rw [← @links_pos_iff d case status exclude .createPaymentLink]
    exact ⟨fun h => h.2.2, fun h => ⟨rfl, one, h⟩⟩
  have reminded : ¬ Reminded limits (policyInput d case .createPaymentLink status exclude) :=
    fun h => nomatch h.1
  rw [evaluatePolicy_approved_iff, pending]
  constructor
  · rintro ⟨bounds, -, links⟩ (high | used | inFlight)
    · exact bounds.low (low.2 high)
    · exact Int.not_lt.2 used bounds.room
    · exact links inFlight
  · intro allowed
    exact ⟨⟨active, fun high => allowed (.inl (low.1 high)),
      Int.not_le.1 fun used => allowed (.inr (.inl used))⟩, reminded,
      fun links => allowed (.inr (.inr links))⟩

/-- A link in flight holds another one back; an issued one does not. -/
theorem one_live_link_iff (active : status.isTerminal = false) (one : limits.oneActivePaymentLink) :
    OneLiveLink limits d case status exclude ↔
      (LinkIssued d case exclude → LinkRefused limits d case exclude) := by
  have approved := @approved_link_iff d case status exclude limits active one
  constructor
  · intro live issued
    by_contra allowed
    exact (live _ _ none (run_buildPolicyInput ..) ((approved none).2 allowed)).2 issued
  · rintro refused input d' delay run asked
    obtain ⟨rfl, rfl⟩ := Prod.mk.inj (Except.ok.inj ((run_buildPolicyInput ..).symm.trans run))
    have allowed := (approved delay).1 asked
    exact ⟨fun inFlight => allowed (.inr (.inr inFlight)), fun issued => allowed (refused issued)⟩

/-- `eligibleDb` with an issued payment link of its case. -/
def issuedDb : Db :=
  { eligibleDb with
    actions := .put .empty
      { newAction (Env.numbered 2).draws sampleCase .createPaymentLink with status := .executed } }

theorem one_live_link_iff_sample :
    OneLiveLink (limitsOf issuedDb sampleCase.merchantId) issuedDb sampleCase .analysing none ↔
      (LinkIssued issuedDb sampleCase none →
        LinkRefused (limitsOf issuedDb sampleCase.merchantId) issuedDb sampleCase none) :=
  one_live_link_iff rfl (by decide +kernel)

/-- A second payment link is approved beside the issued one. -/
theorem second_link_approved : issuedDb.Valid ∧
    ¬ OneLiveLink (limitsOf issuedDb sampleCase.merchantId) issuedDb sampleCase
      .analysing none := by
  refine ⟨by decide +kernel, fun live => ?_⟩
  have asked : (evaluatePolicy (limitsOf issuedDb sampleCase.merchantId)
      (policyInput issuedDb sampleCase .createPaymentLink .analysing none) none).approved := by
    decide +kernel
  exact (live _ _ none (run_buildPolicyInput ..) asked).2 ⟨_, Table.mem_put.2 (.inl rfl),
    ⟨rfl, rfl, nofun⟩, rfl⟩

end RecoverAI
