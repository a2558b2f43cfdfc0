import Mathlib.Algebra.Order.BigOperators.Group.List
import RecoverAI.Runs.Explained
import RecoverAI.Serial.Storable

/-!
# The metrics of a merchant

The counts and sums of the dashboard never go down: a terminal case is final, and the amount
of a case never changes. And the audit log confirms them: it tells each case's creation,
decision and recovery once.
-/
namespace RecoverAI

open Store

/-- No metric has gone down. -/
structure Metrics.Grown (m m' : Metrics) : Prop where
  totalCases : m.totalCases ≤ m'.totalCases
  recoveredCases : m.recoveredCases ≤ m'.recoveredCases
  stoppedCases : m.stoppedCases ≤ m'.stoppedCases
  escalatedCases : m.escalatedCases ≤ m'.escalatedCases
  totalAmountAtRiskMinor : m.totalAmountAtRiskMinor ≤ m'.totalAmountAtRiskMinor
  recoveredAmountMinor : m.recoveredAmountMinor ≤ m'.recoveredAmountMinor
  totalActions : m.totalActions ≤ m'.totalActions

/-- How often the audit log tells something of a merchant's cases. -/
def Db.tellings (d : Db) (merchantId : Uuid) (type : String) : Nat :=
  d.audits.count fun x => x.merchantId = merchantId && x.entityType = "recovery_case" &&
    x.eventType = type

/-- The metrics agree with the audit log and with each other. -/
structure Metrics.Reconciled (m : Metrics) (d : Db) (merchantId : Uuid) : Prop where
  totalCases : m.totalCases = d.tellings merchantId eligibleEvent
  recoveredCases : m.recoveredCases = d.tellings merchantId recoveredEvent
  totalActions : m.totalActions = d.tellings merchantId decisionEvent
  closed : m.recoveredCases + m.stoppedCases + m.escalatedCases ≤ m.totalCases
  decided : m.stoppedCases + m.escalatedCases ≤ m.totalActions
  amounts : 0 ≤ m.recoveredAmountMinor ∧ m.recoveredAmountMinor ≤ m.totalAmountAtRiskMinor

/-! ## Sums and counts -/

section

variable {α β κ M : Type} [AddCommMonoid M] [PartialOrder M] [IsOrderedAddMonoid M]

/-- A sum over rows that have grown, and perhaps others, is no less. -/
theorem sum_le_sum_of_keys {k : α → κ} {f g : α → M} {l m : List α} (nodup : (l.map k).Nodup)
    (grown : ∀ x ∈ l, ∃ y ∈ m, k y = k x ∧ f x ≤ g y) (nonneg : ∀ y ∈ m, 0 ≤ g y) :
    (l.map f).sum ≤ (m.map g).sum := by
  induction l generalizing m with
  | nil => exact List.sum_nonneg fun z hz => let ⟨y, hy, eq⟩ := List.mem_map.1 hz; eq ▸ nonneg y hy
  | cons x l ih =>
    rw [List.map_cons, List.nodup_cons] at nodup
    obtain ⟨y, hy, same, le⟩ := grown x (List.mem_cons_self ..)
    obtain ⟨u, v, rfl⟩ := List.append_of_mem hy
    have rest : (l.map f).sum ≤ ((u ++ v).map g).sum := by
      refine ih nodup.2 (fun z hz => ?_) fun z hz => nonneg z ?_
      · obtain ⟨w, hw, same', le'⟩ := grown z (List.mem_cons_of_mem x hz)
        have other : w ≠ y := by
          rintro rfl
          exact nodup.1 (same.symm.trans same' ▸ List.mem_map_of_mem hz)
        simp only [List.mem_append, List.mem_cons] at hw ⊢
        exact ⟨w, hw.imp_right fun h => h.resolve_left other, same', le'⟩
      · simp only [List.mem_append, List.mem_cons] at hz ⊢
        exact hz.imp_right .inr
    calc ((x :: l).map f).sum = f x + (l.map f).sum := by simp
      _ ≤ g y + ((u ++ v).map g).sum := add_le_add le rest
      _ = ((u ++ y :: v).map g).sum := by simp [add_left_comm]

/-- Lists with the same keys, each once, are of one length. -/
theorem length_eq_of_keys {f : α → κ} {g : β → κ} {l : List α} {m : List β}
    (nodup : (l.map f).Nodup) (nodup' : (m.map g).Nodup) (same : ∀ k, k ∈ l.map f ↔ k ∈ m.map g) :
    l.length = m.length := by
  simpa using ((List.perm_ext_iff_of_nodup nodup nodup').2 same).length_eq

end

theorem countP_add_le {α : Type} {p q r : α → Bool} {l : List α}
    (apart : ∀ x ∈ l, p x → q x = false) (sub : ∀ x ∈ l, p x || q x → r x) :
    l.countP p + l.countP q ≤ l.countP r := by
  induction l with
  | nil => simp
  | cons x l ih =>
    have rest := ih (fun y hy => apart y (List.mem_cons_of_mem x hy)) fun y hy =>
      sub y (List.mem_cons_of_mem x hy)
    have apart := apart x (List.mem_cons_self ..)
    have sub := sub x (List.mem_cons_self ..)
    simp only [List.countP_cons]
    cases hp : p x <;> cases hq : q x <;> simp_all <;> omega

theorem sumWhere_one (s : RecoveryCaseStatus) (cases : List RecoveryCase) :
    sumWhere s (fun _ => (1 : Nat)) cases = cases.countP (·.status = s) := by
  induction cases with
  | nil => rfl
  | cons c cases ih =>
    unfold sumWhere at ih ⊢
    rw [List.map_cons, List.sum_cons, ih, List.countP_cons, Nat.add_comm]
    simp only [decide_eq_true_eq]

/-! ## What stays -/

/-- Cases keep what they are counted by: their merchant, their amount and a terminal status. -/
structure Db.Ages (d d' : Db) : Prop where
  cases : ∀ c ∈ d.cases, ∃ c' ∈ d'.cases, c.Same c' ∧ (c.status.isTerminal → c'.status = c.status)
  actions : ∀ a ∈ d.actions, ∃ a' ∈ d'.actions, a.Same a'

/-- The amounts of the cases pass their check. -/
def Db.Charged (d : Db) : Prop := ∀ c ∈ d.cases, 0 ≤ c.amountMinor

section

variable {d d' d'' : Db} {merchantId : Uuid}

theorem Db.Ages.refl (d : Db) : d.Ages d :=
  ⟨fun c hc => ⟨c, hc, .refl c, fun _ => rfl⟩, fun a ha => ⟨a, ha, .refl a⟩⟩

theorem Db.Ages.trans (h : d.Ages d') (h' : d'.Ages d'') : d.Ages d'' where
  cases c hc := by
    obtain ⟨c', hc', same, final⟩ := h.cases c hc
    obtain ⟨c'', hc'', same', final'⟩ := h'.cases c' hc'
    refine ⟨c'', hc'', same.trans same', fun terminal => ?_⟩
    rw [final' (by rwa [final terminal]), final terminal]
  actions a ha := by
    obtain ⟨a', ha', same⟩ := h.actions a ha
    obtain ⟨a'', ha'', same'⟩ := h'.actions a' ha'
    exact ⟨a'', ha'', same.trans same'⟩

variable {M : Type} [AddCommMonoid M] [PartialOrder M] [IsOrderedAddMonoid M] {f : RecoveryCase → M}

/-- A sum over the cases of a merchant to which none contributes less later. -/
theorem Db.Ages.sum_le (h : d.Ages d')
    (grown : ∀ c ∈ d.cases, ∀ c' ∈ d'.cases,
      c.Same c' → (c.status.isTerminal → c'.status = c.status) → f c ≤ f c')
    (nonneg : ∀ c ∈ d'.cases, 0 ≤ f c) :
    ((d.cases.filter (·.merchantId = merchantId)).map f).sum ≤
      ((d'.cases.filter (·.merchantId = merchantId)).map f).sum := by
  refine sum_le_sum_of_keys (k := RecoveryCase.id)
    (d.cases.nodup.sublist (List.filter_sublist.map _)) (fun c hc => ?_)
    fun c hc => nonneg c (Table.mem_filter.1 hc).1
  obtain ⟨hc, own⟩ := Table.mem_filter.1 hc
  obtain ⟨c', hc', same, final⟩ := h.cases c hc
  exact ⟨c', Table.mem_filter.2 ⟨hc', by rwa [same.merchantId]⟩, same.id,
    grown c hc c' hc' same final⟩

/-- What is counted in a terminal status stays counted. -/
theorem Db.Ages.sumWhere_le (h : d.Ages d') {s : RecoveryCaseStatus} (terminal : s.isTerminal)
    (same : ∀ c c' : RecoveryCase, c.Same c' → f c' = f c) (nonneg : ∀ c ∈ d'.cases, 0 ≤ f c) :
    sumWhere s f (d.cases.filter (·.merchantId = merchantId)) ≤
      sumWhere s f (d'.cases.filter (·.merchantId = merchantId)) := by
  have bound : ∀ c ∈ d'.cases, 0 ≤ if c.status = s then f c else 0 := by
    intro c hc
    split
    · exact nonneg c hc
    · exact le_rfl
  refine h.sum_le (fun c hc c' hc' sameCase final => ?_) bound
  by_cases counted : c.status = s
  · have stays : c'.status = s := (final (counted ▸ terminal)).trans counted
    rw [if_pos counted, if_pos stays, same c c' sameCase]
  · rw [if_neg counted]
    exact bound c' hc'

theorem Db.Ages.grown (h : d.Ages d') (charged : d'.Charged) (merchantId : Uuid) :
    (getMerchantMetrics d merchantId).Grown (getMerchantMetrics d' merchantId) where
  totalCases := by
    have sums : ((d.cases.filter (·.merchantId = merchantId)).map fun _ => 1).sum ≤
        ((d'.cases.filter (·.merchantId = merchantId)).map fun _ => 1).sum :=
      h.sum_le (fun _ _ _ _ _ _ => le_rfl) fun _ _ => Nat.zero_le 1
    simpa [getMerchantMetrics] using sums
  recoveredCases := h.sumWhere_le rfl (fun _ _ _ => rfl) fun _ _ => Nat.zero_le 1
  stoppedCases := h.sumWhere_le rfl (fun _ _ _ => rfl) fun _ _ => Nat.zero_le 1
  escalatedCases := h.sumWhere_le rfl (fun _ _ _ => rfl) fun _ _ => Nat.zero_le 1
  totalAmountAtRiskMinor := h.sum_le (fun _ _ _ _ same _ => same.amountMinor.ge) charged
  recoveredAmountMinor := h.sumWhere_le rfl (fun _ _ same => same.amountMinor) charged
  totalActions := by
    refine Table.count_le_count fun a ha own => ?_
    obtain ⟨a', ha', same⟩ := h.actions a ha
    exact ⟨a', ha', same.id, by rwa [same.merchantId]⟩

end

/-! ## Steps -/

section

variable {d d' : Db}

/-- A statement writes cases that pass their check. -/
theorem charged_exec (st : Stmt) : ∀ c, Row.recoveryCase c ∈ (exec st d).2 → 0 ≤ c.amountMinor := by
  have price : ∀ {c : RecoveryCase}, (Row.recoveryCase c).Stored → 0 ≤ c.amountMinor := by
    intro c stored
    have checks := stored.2
    simp only [Row.checks, Bool.and_eq_true, decide_eq_true_eq] at checks
    exact checks.1.1
  have flush : ∀ {α : Type} {found : Option α} {patch : α → Row}, ∀ c,
      Row.recoveryCase c ∈ (Db.flush found patch).2 →
      0 ≤ c.amountMinor := by
    intro α found patch c hc
    cases found with
    | none => cases hc
    | some a => exact price (stored_write updateError_eq_none.1 _ hc)
  have updateWhere : ∀ {α : Type} {found : Option α} {p : α → Bool} {set : α → Row}, ∀ c,
      Row.recoveryCase c ∈ (Db.updateWhere found p set).2 → 0 ≤ c.amountMinor := by
    intro α found p set c hc
    unfold Db.updateWhere at hc
    split at hc
    · cases hc
    · exact price (stored_write updateError_eq_none.1 _ hc)
  cases st with
  | insert r =>
    intro c hc
    have stored : d.insertError r = none → r.Stored := fun ok =>
      ⟨(insertError_eq_none.1 ok).fits, (insertError_eq_none.1 ok).checks⟩
    exact price (stored_write stored _ hc)
  | updateCase | updateAction => exact updateWhere
  | flushCase | flushAction | flushWebhookEvent => exact flush
  | flushPayment old new =>
    intro c hc
    by_cases same : old = new
    · simp [exec, Db.exec, same] at hc
    · exact flush c (by simpa [exec, Db.exec, same] using hc)
  | cancelActions => simp [exec, Db.exec]
  | _ => simp [exec, Db.exec]

theorem charged_run {α : Type} {t : Tx α} {a : α} (charged : d.Charged)
    (run : t.run d = .ok (a, d')) : d'.Charged := by
  induction t generalizing d with
  | pure b =>
    cases run
    exact charged
  | throw e => cases run
  | sql st next ih =>
    refine ih _ (fun c hc => ?_) run
    rw [view_cases] at hc
    rcases Table.mem_or_of_mem_putAll hc with written | old
    · obtain ⟨r, hr, eq⟩ := List.mem_filterMap.1 written
      cases r <;> cases eq
      exact charged_exec st c hr
    · exact charged c old

end

section

variable [PyLib] {d d' : Db} {carried : Option Claim} {allows : Db → Stmt → Prop}

/-- Nothing writes the row of a terminal case. -/
theorem Work.final (h : Work id World.Alone allows carried d' d) (sound : d.Sound)
    (backs : World.Backs d carried) {c : RecoveryCase} (hc : c ∈ d.cases)
    (terminal : c.status.isTerminal) : c ∈ d'.cases := by
  -- A commit writes the row of an open case, or a new one.
  have kept : ∀ {cs : List RecoveryCase} {as os xs} {case : RecoveryCase},
      d.Changes d' cs as os xs →
      d.cases.get case.id = some case → case.status.isTerminal = false →
        (∀ x ∈ cs, x.id = case.id) → c ∈ d'.cases := by
    intro cs as os xs case changes found open_ own
    rw [changes.cases]
    refine Table.mem_putAll_of_free hc fun x hx same => ?_
    have : case = c := Table.eq_of_key (Table.get_eq_some.1 found).1 hc ((own x hx).symm.trans same)
    rw [this, terminal] at open_
    cases open_
  have moved : ∀ {new : RecoveryCaseStatus} {case : RecoveryCase} {rows : List Row} {as os xs},
      d.Changes d' (casesOf rows) as os xs → d.cases.get case.id = some case →
        Moves id World.Alone new case rows d →
      c ∈ d'.cases := by
    intro new case rows as os xs changes found moves
    rcases moves.alone found with ⟨-, none⟩ | ⟨scheduled, some⟩
    · rw [changes.cases, none]
      exact hc
    · exact kept changes found (by rw [scheduled]; rfl) fun x hx => by
        rw [some, List.mem_singleton] at hx
        exact hx ▸ rfl
  cases h with
  | quiet changes | noted _ _ _ _ changes | claimed _ _ _ changes | failed _ _ _ _ _ changes =>
    rw [changes.cases]
    exact hc
  | blocked taken _ changes =>
    obtain ⟨rfl, found, eligible⟩ := taken.alone
    exact kept changes found (by rw [eligible]; rfl) fun x hx => List.mem_singleton.1 hx ▸ rfl
  | decided taken _ _ _ changes =>
    obtain ⟨rfl, found, eligible⟩ := taken.alone
    exact kept changes found (by rw [eligible]; rfl) fun x hx => List.mem_singleton.1 hx ▸ rfl
  | cancelled held stop _ changes =>
    obtain ⟨-, -, -, -, found, -⟩ := held.alone
    exact moved changes found stop
  | executed carries found _ moves _ _ changes =>
    exact moved changes (found.alone carries backs).2.2.1 moves
  | created _ absent _ _ changes =>
    rw [changes.cases]
    refine Table.mem_putAll_of_free hc fun x hx same => ?_
    rw [List.mem_singleton.1 hx] at same
    exact Table.get_eq_none.1 absent.case c hc same.symm
  | activated found status =>
    obtain ⟨_, rfl, found⟩ := found
    exact absurd status (sound.notFailed _ (Table.mem_of_find found).1)
  | recovered _ chosen recovers _ _ changes =>
    obtain ⟨rfl, -, found⟩ := recovers.alone chosen
    rw [patchCase_become] at changes
    exact kept changes found recovers.nonterminal fun x hx => List.mem_singleton.1 hx ▸ rfl

end

/-! ## Runs -/

namespace World

variable [PyLib] {settings : Settings} {u v w : World} {turn : Turn}

theorem Does.ages (does : Does settings w turn v) (sound : w.Sound) : w.db.Ages v.db := by
  have grows := does.grows
  refine ⟨fun c hc => ?_, grows.actions⟩
  obtain ⟨c', hc', same⟩ := grows.cases c hc
  refine ⟨c', hc', same, fun terminal => ?_⟩
  have kept : c ∈ v.db.cases := by
    cases does with
    | commit at_ code clock run =>
      exact (work_of_run code run).final sound.db
        (sound.claims _ (List.mem_of_getElem? at_)) hc terminal
    | _ => exact hc
  rw [Table.eq_of_key hc' kept same.id]

theorem Reaches.ages (h : u.Reaches settings w) (sound : u.Sound) : u.db.Ages w.db := by
  induction h with
  | refl => exact .refl u.db
  | step turn before move ih => exact ih.trans ((next_does move).ages (before.sound sound))

theorem Reaches.charged (h : u.Reaches settings w) (charged : u.db.Charged) : w.db.Charged := by
  induction h with
  | refl => exact charged
  | step turn before move ih =>
    cases next_does move with
    | commit at_ code clock run => exact charged_run ih run
    | _ => exact ih

end World

/-! ## The audit log -/

section

variable {d : Db} {c : RecoveryCase} {merchantId : Uuid} {type : String}

theorem nodup_story (acted recovered : Bool) : (story acted recovered).Nodup := by
  cases acted <;> cases recovered <;> decide

/-- Of a case each type is told once. -/
theorem Told.once (h : Told d c) {x y : AuditEvent} (hx : x ∈ d.trail c.id) (hy : y ∈ d.trail c.id)
    (same : x.eventType = y.eventType) : x = y := by
  have nodup : ((d.trail c.id).map (·.eventType)).Nodup := h.types ▸ nodup_story ..
  exact List.inj_on_of_nodup_map nodup hx hy same

/-- The events of a type are as many as the cases they are told of. -/
theorem Db.Told.tellings_eq (told : d.Told) (sound : d.Sound) {p : RecoveryCase → Bool}
    (tells : ∀ c ∈ d.cases, type ∈ story (d.acted c.id) (c.status = .recovered) ↔ p c) :
    d.tellings merchantId type = d.cases.count fun c => c.merchantId = merchantId && p c := by
  -- The case an event is about, with the event in its trail.
  have subject : ∀ {x : AuditEvent}, x ∈ d.audits → x.entityType = "recovery_case" → ∃ c ∈ d.cases,
      x ∈ d.trail c.id ∧ c.id.str = x.entityId ∧ c.merchantId = x.merchantId := by
    intro x hx entity
    rcases sound.audit x hx with ⟨-, c, hc, id, merchant⟩ | ⟨other, -⟩
    · exact ⟨c, hc, mem_trail.2 ⟨hx, entity, id.symm⟩, id, merchant⟩
    · rw [entity] at other
      simp at other
  have told' : ∀ {c}, c ∈ d.cases → (type ∈ (d.trail c.id).map (·.eventType) ↔ p c) := fun hc =>
    (told _ hc).types ▸ tells _ hc
  unfold Db.tellings Table.count
  rw [List.countP_eq_length_filter, List.countP_eq_length_filter]
  refine length_eq_of_keys (f := AuditEvent.entityId) (g := fun c => c.id.str) ?_ ?_ fun k => ?_
  · refine List.Nodup.map_on (fun x hx y hy same => ?_)
      ((List.Nodup.of_map _ d.audits.nodup).filter _)
    simp only [List.mem_filter, Bool.and_eq_true, decide_eq_true_eq] at hx hy
    obtain ⟨c, hc, mine, id, -⟩ := subject hx.1 hx.2.1.2
    have yours : y ∈ d.trail c.id := mem_trail.2 ⟨hy.1, hy.2.1.2, same.symm.trans id.symm⟩
    exact (told c hc).once mine yours (hx.2.2.trans hy.2.2.symm)
  · have keys : ((d.cases.rows.filter fun c => c.merchantId = merchantId && p c).map key).Nodup :=
      d.cases.nodup.sublist (List.filter_sublist.map _)
    exact List.Nodup.map_on
      (fun c hc c' hc' same => List.inj_on_of_nodup_map keys hc hc' (Uuid.str_injective same))
      (List.Nodup.of_map _ keys)
  · simp only [List.mem_map, List.mem_filter, Bool.and_eq_true, decide_eq_true_eq]
    constructor
    · rintro ⟨x, ⟨hx, ⟨own, entity⟩, kind⟩, rfl⟩
      obtain ⟨c, hc, mine, id, merchant⟩ := subject hx entity
      exact ⟨c, ⟨hc, merchant.trans own, (told' hc).1 (List.mem_map.2 ⟨x, mine, kind⟩)⟩, id⟩
    · rintro ⟨c, ⟨hc, own, holds⟩, rfl⟩
      obtain ⟨x, mine, kind⟩ := List.mem_map.1 ((told' hc).2 holds)
      obtain ⟨hx, entity, about⟩ := mem_trail.1 mine
      obtain ⟨c', hc', -, id, merchant⟩ := subject hx entity
      obtain rfl : c' = c := Table.eq_of_key hc' hc (Uuid.str_injective (id.trans about))
      exact ⟨x, ⟨hx, ⟨merchant.symm.trans own, entity⟩, kind⟩, about⟩

/-- A merchant has as many actions as cases with an action. -/
theorem Db.Sound.count_actions (sound : d.Sound) : d.actions.count (·.merchantId = merchantId) =
    d.cases.count fun c => c.merchantId = merchantId && d.acted c.id := by
  unfold Table.count
  rw [List.countP_eq_length_filter, List.countP_eq_length_filter]
  refine length_eq_of_keys (f := RecoveryAction.recoveryCaseId) (g := RecoveryCase.id) ?_
    (d.cases.nodup.sublist (List.filter_sublist.map _)) fun k => ?_
  · refine List.Nodup.map_on (fun a ha b hb same => ?_)
      ((List.Nodup.of_map _ d.actions.nodup).filter _)
    exact sound.oneAction a (List.mem_filter.1 ha).1 b (List.mem_filter.1 hb).1 same
  · simp only [List.mem_map, List.mem_filter, Bool.and_eq_true, decide_eq_true_eq, acted_iff]
    constructor
    · rintro ⟨a, ⟨ha, own⟩, rfl⟩
      obtain ⟨c, hc, id, merchant⟩ := sound.action a ha
      exact ⟨c, ⟨hc, merchant.trans own, a, ha, id.symm⟩, id⟩
    · rintro ⟨c, ⟨hc, own, a, ha, about⟩, rfl⟩
      obtain ⟨c', hc', id, merchant⟩ := sound.action a ha
      obtain rfl : c' = c := Table.eq_of_key hc' hc (id.trans about)
      exact ⟨a, ⟨ha, merchant.symm.trans own⟩, about⟩

theorem Db.Told.reconciled (told : d.Told) (sound : d.Sound) (charged : d.Charged)
    (merchantId : Uuid) : (getMerchantMetrics d merchantId).Reconciled d merchantId := by
  have decided : ∀ c ∈ d.cases.filter (·.merchantId = merchantId), c.status = .stopped ∨
      c.status = .escalated →
      d.acted c.id := by
    intro c hc ended
    by_contra none
    rcases (told c (Table.mem_filter.1 hc).1).unacted (Bool.eq_false_iff.2 none) with
      status | status <;>
      simp [status] at ended
  have prices : ∀ c ∈ d.cases.filter (·.merchantId = merchantId), 0 ≤ c.amountMinor := fun c hc =>
    charged c (Table.mem_filter.1 hc).1
  constructor
  · rw [told.tellings_eq sound (p := fun _ => true) fun c _ => by simp [story]]
    simp [getMerchantMetrics, Table.count, Table.filter, List.countP_eq_length_filter]
  · rw [told.tellings_eq sound (p := fun c => c.status = .recovered) fun c _ => ?_]
    · simp only [getMerchantMetrics, sumWhere_one, Table.count, Table.filter, List.countP_filter,
        Bool.and_comm]
    · cases d.acted c.id <;> by_cases status : c.status = .recovered <;>
        simp [story, status, recoveredEvent, eligibleEvent, decisionEvent]
  · rw [told.tellings_eq sound (p := fun c => d.acted c.id) fun c _ => ?_]
    · exact sound.count_actions
    · cases d.acted c.id <;> by_cases status : c.status = .recovered <;>
        simp [story, status, recoveredEvent, eligibleEvent, decisionEvent]
  · simp only [getMerchantMetrics, sumWhere_one]
    generalize d.cases.filter (·.merchantId = merchantId) = cases
    have first : cases.countP (·.status = .recovered) + cases.countP (·.status = .stopped) ≤
        cases.countP fun c => c.status = .recovered || c.status = .stopped :=
      countP_add_le (fun c _ status => by simp_all) fun c _ status => status
    have second : cases.countP (fun c => c.status = .recovered || c.status = .stopped) +
        cases.countP (·.status = .escalated) ≤ cases.countP fun _ => true :=
      countP_add_le (fun c _ status => by simp_all; grind) fun _ _ _ => rfl
    rw [List.countP_true] at second
    omega
  · have acted : (d.cases.filter (·.merchantId = merchantId)).countP (fun c => d.acted c.id) =
        d.actions.count (·.merchantId = merchantId) := by
      rw [sound.count_actions]
      simp only [Table.count, Table.filter, List.countP_filter, Bool.and_comm]
    simp only [getMerchantMetrics, sumWhere_one, ← acted]
    refine countP_add_le (fun c _ status => by simp_all) fun c hc status => decided c hc ?_
    simpa using status
  · simp only [getMerchantMetrics, sumWhere]
    constructor
    · refine List.sum_nonneg fun x hx => ?_
      obtain ⟨c, hc, rfl⟩ := List.mem_map.1 hx
      split
      · exact prices c hc
      · exact le_rfl
    · refine List.sum_le_sum fun c hc => ?_
      split
      · exact le_rfl
      · exact prices c hc

end

section

variable [PyLib] {settings : Settings} {now : Time} {merchants : Table Merchant}
  {policies : Table MerchantPolicy} {v w : World}

/-- In every run the metrics of every merchant agree with the audit log. -/
theorem metrics_reconciled (run : (World.start now merchants policies).Reaches settings w)
    (merchantId : Uuid) : (getMerchantMetrics w.db merchantId).Reconciled w.db merchantId :=
  (World.told_of_start run).2.reconciled (run.sound (.start now merchants policies)).db
    (run.charged fun _ hc => absurd hc List.not_mem_nil) merchantId

/-- In every run no metric goes down. -/
theorem metrics_grow (run : (World.start now merchants policies).Reaches settings w)
    (later : w.Reaches settings v) (merchantId : Uuid) :
    (getMerchantMetrics w.db merchantId).Grown (getMerchantMetrics v.db merchantId) :=
  (later.ages (run.sound (.start now merchants policies))).grown
    ((run.trans later).charged fun _ hc => absurd hc List.not_mem_nil) merchantId

end

/-- The failed payment is captured after all, once the decision is taken. -/
def recoverTurns : List Turn :=
  [.request captured.request, .tick 4, .transact 2 (.numbered 4)]

theorem recoverRun : let _ : PyLib := .recorded [expiredInstrument, captured]
    ∃ w v : World, sampleWorld.run {} decideTurns = some w ∧ w.run {} recoverTurns = some v ∧
      (getMerchantMetrics w.db (.ofNat 1)).recoveredCases = 0 ∧
      (getMerchantMetrics v.db (.ofNat 1)).recoveredCases = 1 ∧
      (getMerchantMetrics v.db (.ofNat 1)).recoveredAmountMinor = 5000 := by
  intro _
  have runs : ((sampleWorld.run {} decideTurns).bind fun w => (w.run {} recoverTurns).map fun v =>
      decide ((getMerchantMetrics w.db (.ofNat 1)).recoveredCases = 0) &&
        decide ((getMerchantMetrics v.db (.ofNat 1)).recoveredCases = 1) &&
        decide ((getMerchantMetrics v.db (.ofNat 1)).recoveredAmountMinor = 5000)) = some true := by
    decide +kernel
  obtain ⟨w, run, runs⟩ := Option.bind_eq_some_iff.1 runs
  obtain ⟨v, more, facts⟩ := Option.map_eq_some_iff.1 runs
  simp only [Bool.and_eq_true, decide_eq_true_eq, and_assoc] at facts
  exact ⟨w, v, run, more, facts⟩

theorem metrics_reconciled_sample : ∃ v,
    @World.Reaches (.recorded [expiredInstrument, captured]) {} sampleWorld v ∧
      (getMerchantMetrics v.db (.ofNat 1)).recoveredCases = 1 ∧
      (getMerchantMetrics v.db (.ofNat 1)).Reconciled v.db (.ofNat 1) := by
  let _ : PyLib := .recorded [expiredInstrument, captured]
  obtain ⟨w, v, run, more, -, recovered, -⟩ := recoverRun
  have reached := (World.Reaches.run .refl run).run more
  exact ⟨v, reached, recovered, metrics_reconciled reached _⟩

theorem metrics_grow_sample : ∃ w v,
    @World.Reaches (.recorded [expiredInstrument, captured]) {} sampleWorld w ∧
      @World.Reaches (.recorded [expiredInstrument, captured]) {} w v ∧
      (getMerchantMetrics w.db (.ofNat 1)).recoveredCases <
        (getMerchantMetrics v.db (.ofNat 1)).recoveredCases ∧
      (getMerchantMetrics w.db (.ofNat 1)).Grown (getMerchantMetrics v.db (.ofNat 1)) := by
  let _ : PyLib := .recorded [expiredInstrument, captured]
  obtain ⟨w, v, run, more, before, after, -⟩ := recoverRun
  have reached := World.Reaches.run .refl run
  have later := World.Reaches.run .refl more
  exact ⟨w, v, reached, later, by omega, metrics_grow reached later _⟩

end RecoverAI
