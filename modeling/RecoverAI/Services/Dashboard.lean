import RecoverAI.Models.Tables
import RecoverAI.Store.Paging

/-!
# The dashboard

A page of the case list is a query of its own, sorted by the time of creation only. All rows of one
transaction share that time, and the database may order them differently for each page. The details
of a case are two more queries, and the metrics of a merchant are counts and sums.
-/
namespace RecoverAI

open Store

/-- What the endpoint takes as `limit`. -/
structure PageSize where
  value : Nat
  positive : 1 ≤ value
  bounded : value ≤ 100

variable (d : Db) (merchantId : Uuid) (statusFilter : Option RecoveryCaseStatus)

/-- The condition of `base_query`. -/
def inBaseQuery (c : RecoveryCase) : Bool :=
  c.merchantId = merchantId && statusFilter.all (c.status = ·)

def baseQuery : List RecoveryCase := d.cases.filter (inBaseQuery merchantId statusFilter)

/-- The cases of one page and `total_count`, where `order` is the order in which the
database answers this query. -/
def getPaginatedCases (order : List RecoveryCase → List RecoveryCase) (limit offset : Nat) :
    List RecoveryCase × Nat :=
  (page limit offset (order (baseQuery d merchantId statusFilter)),
    d.cases.count (inBaseQuery merchantId statusFilter))

/-- The orders that `ORDER BY created_at DESC` allows. -/
def OrdersCases (order : List RecoveryCase → List RecoveryCase) : Prop :=
  Sorts RecoveryCase.createdAt (baseQuery d merchantId statusFilter)
    (order (baseQuery d merchantId statusFilter))

/-- The pages at the offsets below `total_count`, each with its own order. -/
def allPages (orders : Nat → List RecoveryCase → List RecoveryCase) (limit : PageSize) :
    List RecoveryCase :=
  (offsets limit.value (d.cases.count (inBaseQuery merchantId statusFilter))).flatMap fun offset =>
    (getPaginatedCases d merchantId statusFilter (orders offset) limit.value offset).1

variable {d merchantId statusFilter}

theorem count_baseQuery : d.cases.count (inBaseQuery merchantId statusFilter) =
    (baseQuery d merchantId statusFilter).length := by
  rw [baseQuery, Table.filter, Table.count, List.countP_eq_length_filter]

theorem nodup_baseQuery : (baseQuery d merchantId statusFilter).Nodup :=
  (List.Nodup.of_map key d.cases.nodup).filter _

/-- Every matching case is listed exactly once for all orders if and only if cases created at one
time are on one page. The count is right in any case. -/
theorem pagination_exact_iff (d : Db) (merchantId : Uuid) (statusFilter : Option RecoveryCaseStatus)
    (limit : PageSize) :
    (∀ orders : Nat → List RecoveryCase → List RecoveryCase,
      (∀ offset, OrdersCases d merchantId statusFilter (orders offset)) →
      (allPages d merchantId statusFilter orders limit).Perm (baseQuery d merchantId statusFilter) ∧
      ∀ offset, (getPaginatedCases d merchantId statusFilter (orders offset) limit.value offset).2 =
        (baseQuery d merchantId statusFilter).length) ↔
    TiesTogether RecoveryCase.createdAt (baseQuery d merchantId statusFilter) limit.value := by
  rw [← pages_exact_iff limit.positive nodup_baseQuery]
  constructor
  · intro exact_ orders sorted
    have listed := (exact_ (fun offset _ => orders offset) sorted).1
    rwa [allPages, count_baseQuery] at listed
  · intro exact_ orders sorted
    refine ⟨?_, fun _ => count_baseQuery⟩
    rw [allPages, count_baseQuery]
    exact exact_ (fun offset => orders offset (baseQuery d merchantId statusFilter)) sorted

/-- A case of a transaction at time 1. -/
def seededCase (n : Nat) : RecoveryCase where
  id := .ofNat n
  merchantId := .ofNat 1
  paymentId := .ofNat (n + 10)
  status := .waiting
  amountMinor := 50000
  currency := "INR"
  failureCategory := some "insufficient_funds"
  nextActionAt := some 25
  version := 3
  createdAt := 1

def seededDb : Db :=
  { Db.initial (.put .empty ⟨.ofNat 1, true⟩) .empty with
    cases := .put (.put .empty (seededCase 1)) (seededCase 2) }

/-- Two cases of one transaction, one on a page: the first is listed twice, the second never. -/
theorem pagination_repeats : ∃ orders : Nat → List RecoveryCase → List RecoveryCase,
    (∀ offset, OrdersCases seededDb (.ofNat 1) none (orders offset)) ∧
    allPages seededDb (.ofNat 1) none orders ⟨1, by decide, by decide⟩ =
      [seededCase 1, seededCase 1] ∧
    baseQuery seededDb (.ofNat 1) none = [seededCase 1, seededCase 2] := by
  have base : baseQuery seededDb (.ofNat 1) none = [seededCase 1, seededCase 2] := by decide +kernel
  refine ⟨fun offset => if offset = 0 then id else List.reverse, fun offset => ?_,
    by decide +kernel, base⟩
  by_cases first : offset = 0
  · simp only [OrdersCases, if_pos first, base]
    exact ⟨.refl _, by decide +kernel⟩
  · simp only [OrdersCases, if_neg first, base]
    exact ⟨List.reverse_perm _, by decide +kernel⟩

/-! ## One case -/

/-- The audit events about a case, in the order of their insertion. -/
def Db.trail (d : Db) (caseId : Uuid) : List AuditEvent :=
  d.audits.filter fun x => x.entityType = "recovery_case" && x.entityId = caseId.str

def Db.actionsOf (d : Db) (caseId : Uuid) : List RecoveryAction :=
  d.actions.filter (·.recoveryCaseId = caseId)

/-- A case of the merchant with its actions and its audit events, in the orders in which the
database answers the two queries. -/
def getCaseExplainability (d : Db) (actionOrder : List RecoveryAction → List RecoveryAction)
    (auditOrder : List AuditEvent → List AuditEvent) (caseId merchantId : Uuid) :
    Option RecoveryCase × List RecoveryAction × List AuditEvent :=
  match d.cases.find fun c => c.id = caseId && c.merchantId = merchantId with
  | none => (none, [], [])
  | some case => (some case, actionOrder (d.actionsOf caseId), auditOrder (d.trail caseId))

/-- The orders that `ORDER BY created_at ASC` allows. The rows of the actions are without their
times here, so any order of them is allowed. -/
structure OrdersDetails (d : Db) (caseId : Uuid)
    (actionOrder : List RecoveryAction → List RecoveryAction)
    (auditOrder : List AuditEvent → List AuditEvent) : Prop where
  actions : (actionOrder (d.actionsOf caseId)).Perm (d.actionsOf caseId)
  audits : Sorts (fun x => OrderDual.toDual x.createdAt) (d.trail caseId)
    (auditOrder (d.trail caseId))

/-! ## Metrics -/

/-- The metrics that are counts and sums. -/
structure Metrics where
  totalCases : Nat
  recoveredCases : Nat
  stoppedCases : Nat
  escalatedCases : Nat
  totalAmountAtRiskMinor : Int
  recoveredAmountMinor : Int
  totalActions : Nat

/-- `SUM(CASE WHEN status = s THEN f ELSE 0 END)`, where no row gives 0. -/
def sumWhere {α : Type} [Zero α] [Add α] (s : RecoveryCaseStatus) (f : RecoveryCase → α)
    (cases : List RecoveryCase) : α :=
  (cases.map fun c => if c.status = s then f c else 0).sum

def getMerchantMetrics (d : Db) (merchantId : Uuid) : Metrics :=
  let cases := d.cases.filter (·.merchantId = merchantId)
  { totalCases := cases.length
    recoveredCases := sumWhere .recovered (fun _ => 1) cases
    stoppedCases := sumWhere .stopped (fun _ => 1) cases
    escalatedCases := sumWhere .escalated (fun _ => 1) cases
    totalAmountAtRiskMinor := (cases.map (·.amountMinor)).sum
    recoveredAmountMinor := sumWhere .recovered (·.amountMinor) cases
    totalActions := d.actions.count (·.merchantId = merchantId) }

end RecoverAI
