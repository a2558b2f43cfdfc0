import RecoverAI.Concurrency.Once
import Mathlib.Data.List.Infix

/-!
# The history of a case

The versions of a case row in a ledger, and the law they follow: the version grows with every change
of the status, the status moves along the allowed transitions, and a terminal status is the last.
The guarded updates keep the law. The `UPDATE` of a captured event names the row by its primary key
alone: it keeps the law where the row still is as the handler read it.
-/
namespace RecoverAI

open Store

/-- What a later version of a case may be. -/
structure RecoveryCase.Leads (c c' : RecoveryCase) : Prop where
  path : c.status.Path c'.status
  version : c.version ≤ c'.version
  grows : c.status ≠ c'.status → c.version < c'.version
  final : c.status.isTerminal → c'.status = c.status ∧ c'.version = c.version

namespace RecoveryCase.Leads

protected theorem refl (c : RecoveryCase) : c.Leads c where
  path := .refl
  version := le_refl _
  grows h := absurd rfl h
  final _ := ⟨rfl, rfl⟩

protected theorem trans {c c' c'' : RecoveryCase} (h : c.Leads c') (h' : c'.Leads c'') :
  c.Leads c'' where
  path := h.path.trans h'.path
  version := h.version.trans h'.version
  grows ne := by
    by_cases same : c.status = c'.status
    · exact lt_of_le_of_lt h.version (h'.grows (same ▸ ne))
    · exact lt_of_lt_of_le (h.grows same) h'.version
  final terminal := by
    obtain ⟨status, version⟩ := h.final terminal
    obtain ⟨status', version'⟩ := h'.final (status ▸ terminal)
    exact ⟨status'.trans status, version'.trans version⟩

/-- A case that is not terminal may move along a path to a greater version. -/
theorem of_path {c c' : RecoveryCase} (open_ : c.status.isTerminal = false)
    (path : c.status.Path c'.status) (version : c.version < c'.version) : c.Leads c' where
  path := path
  version := version.le
  grows _ := version
  final terminal := by
    rw [open_] at terminal
    cases terminal

/-- One allowed transition. -/
theorem of_transition {c c' : RecoveryCase}
    (h : RecoveryCaseStatus.canTransition c.status c'.status) (version : c.version < c'.version) :
    c.Leads c' :=
  of_path (RecoveryCaseStatus.not_isTerminal_of_canTransition h) (.single h) version

end RecoveryCase.Leads

/-- The row of a case that is written still is as it was read, or already as it is to be. -/
def unmoved (v : Db) : Stmt → Bool
  | .flushCase old new => (v.cases.get old.id).all fun r =>
      (r.status = old.status && r.version = old.version) ||
        (r.status = new.status && r.version = new.version)
  | _ => true

theorem Selection.path_finalStatus (s : Selection) :
    RecoveryCaseStatus.Path .eligible s.finalStatus := by
  have selected : RecoveryCaseStatus.Path .eligible .actionSelected :=
    .tail (.single (by decide : RecoveryCaseStatus.canTransition .eligible .analysing)) (by decide)
  rcases s.finalStatus_cases with ⟨-, h⟩ | ⟨-, h⟩ | ⟨-, h⟩ <;> rw [h] <;>
    exact selected.tail (by decide)

section

variable {T : Type} {db : T → Db} {R : List Row → T → T → Prop} {allows : Db → Stmt → Prop}
  {carried : Option Claim} {us : List Row} {t : T} {d' : Db}

/-- Where the row of a recovery is unmoved, the recovery continues its history. -/
theorem Recovers.leads {merchant : Merchant} {entity : RazorpayPaymentEntity} {amountMinor : Int}
    {currency : String} {env : Draws} {payment : Payment} {inbox : WebhookEvent} {prs : List Row}
    {case r : RecoveryCase} {cancels : List RecoveryAction}
    (recovers : Recovers db R allows inbox prs case r cancels t)
    (pay : WritesCaptured db R env merchant entity amountMinor currency payment prs t)
    (only : ∀ v st, allows v st → unmoved v st) :
    r.Leads (Db.patchCase case (case.become .recovered) r) := by
  obtain ⟨t₀, t₁, -, -, granted, base, -⟩ := recovers.read
  have seen := only _ _ granted
  have row : (view (db t₁) (.webhookEvent inbox :: prs ++ cancels.map fun a => .action
      (Db.cancelled a))).cases.get case.id = some r := by
    simpa [List.filterMap_cons, Row.case?, pay.tables, Function.comp_def] using base
  have status : (Db.patchCase case (case.become .recovered) r).status = .recovered :=
    patchCase_recovered_status recovers.nonterminal r
  have version : (Db.patchCase case (case.become .recovered) r).version = case.version + 1 := by
    simp [Db.patchCase, Db.changed, RecoveryCase.become]
  simp only [unmoved, row, Option.all_some, Bool.or_eq_true, Bool.and_eq_true,
    decide_eq_true_eq] at seen
  rcases seen with ⟨sameStatus, sameVersion⟩ | ⟨sameStatus, sameVersion⟩
  · have open_ : r.status.isTerminal = false := sameStatus ▸ recovers.nonterminal
    refine .of_transition ?_ ?_
    · rw [status]
      exact RecoveryCaseStatus.canTransition_recovered open_
    · omega
  · have recovered : r.status = .recovered := sameStatus
    have same : r.version = case.version + 1 := sameVersion
    refine ⟨?_, ?_, ?_, ?_⟩
    · rw [status, recovered]
      exact .refl
    · omega
    · exact fun h => absurd (recovered.trans status.symm) h
    · exact fun _ => ⟨status.trans recovered.symm, version.trans same.symm⟩

/-- Every written case row continues the history of the row it replaces. -/
theorem Work.leads [PyLib] (h : Work db R allows carried d' t) (past : Past db R t)
    (only : ∀ v st, allows v st → unmoved v st) : ∃ cs as os xs, (db t).Changes d' cs as os xs ∧
      ∀ c' ∈ cs, ∀ c, (db t).cases.get c'.id = some c → c.Leads c' := by
  have single : ∀ {c c' : RecoveryCase} {id : Uuid}, (db t).cases.get id = some c → c'.id = c.id →
      c.Leads c' → ∀ c₁ ∈ [c'], ∀ c₀, (db t).cases.get c₁.id = some c₀ → c₀.Leads c₁ := by
    intro c c' id base same leads c₁ h₁ c₀ h₀
    obtain rfl := List.mem_singleton.1 h₁
    obtain ⟨mem, -⟩ := Table.get_eq_some.1 base
    obtain ⟨mem₀, id₀⟩ := Table.get_eq_some.1 h₀
    exact Table.eq_of_key mem mem₀ (same.symm.trans id₀.symm) ▸ leads
  have moves : ∀ {new : RecoveryCaseStatus} {case : RecoveryCase} {rows : List Row},
      Moves db R new case rows t → RecoveryCaseStatus.canTransition .actionScheduled new →
      ∀ c' ∈ casesOf rows, ∀ c, (db t).cases.get c'.id = some c → c.Leads c' := by
    intro new case rows h allowed
    cases h with
    | skipped => simp
    | moved base status =>
      refine single base rfl (.of_transition (status ▸ allowed) ?_)
      simp [RecoveryCase.become]
  cases h with
  | quiet changes | noted _ _ _ _ changes | claimed _ _ _ changes | failed _ _ _ _ _ changes =>
    exact ⟨_, _, _, _, changes, by simp⟩
  | blocked taken _ changes =>
    refine ⟨_, _, _, _, changes, single taken.base rfl (.of_transition ?_ ?_)⟩
    · rw [taken.status]
      exact (by decide : RecoveryCaseStatus.canTransition .eligible .analysing)
    · simp [RecoveryCase.analysing]
  | decided taken _ _ _ changes =>
    refine ⟨_, _, _, _, changes, single taken.base rfl (.of_path ?_ ?_ ?_)⟩
    · rw [taken.status]
      decide
    · rw [taken.status]
      exact Selection.path_finalStatus _
    · simp [RecoveryCase.decided]
  | cancelled _ stop _ changes => exact ⟨_, _, _, _, changes, moves stop (by decide)⟩
  | executed _ _ _ waiting _ _ changes => exact ⟨_, _, _, _, changes, moves waiting (by decide)⟩
  | created _ absent _ _ changes =>
    refine ⟨_, _, _, _, changes, fun c' hc' c hc => ?_⟩
    obtain rfl := List.mem_singleton.1 hc'
    cases absent.case.symm.trans hc
  | activated found status base _ _ changes =>
    obtain ⟨t₀, h₀, hc⟩ := found
    exact absurd status ((past.sound h₀).notFailed _ (Table.mem_of_find hc).1)
  | recovered pay _ recovers _ _ changes =>
    exact ⟨_, _, _, _, changes, single recovers.base rfl (recovers.leads pay only)⟩

end

section

variable [PyLib] {settings : Settings} {d : Db} {allows : Db → Stmt → Bool} {log log' : Ledger}

/-- Along a ledger every version of a case leads to the later ones. -/
theorem leads_of_suffix (sound : d.Sound) (only : ∀ v st, allows v st → unmoved v st)
    (legal : Legal (Good settings d allows) log') (h : log <:+ log') {id : Uuid}
    {c c' : RecoveryCase} (hc : (dbOf d log).cases.get id = some c)
    (hc' : (dbOf d log').cases.get id = some c') : c.Leads c' := by
  obtain ⟨before, rfl⟩ := h
  induction before generalizing c' with
  | nil =>
    obtain rfl := Option.some.inj (hc.symm.trans hc')
    exact .refl c
  | cons e before ih =>
    -- The row before the last event.
    obtain ⟨mem, id⟩ := Table.get_eq_some.1 hc
    obtain ⟨m, hm, same⟩ := (grows_of_suffix legal.1 (List.suffix_append before log)).cases c mem
    have hm' : (dbOf d (before ++ log)).cases.get c.id = some m := same.id ▸ Table.get_of_mem hm
    subst id
    refine (ih legal.1 hm').trans ?_
    cases e with
    | call =>
      obtain rfl := Option.some.inj (hm'.symm.trans hc')
      exact .refl m
    | commit pid p us q =>
      obtain ⟨-, commits⟩ := legal.2
      obtain ⟨_, _, _, _, changes, leads⟩ := commits.work.leads (legal.1.past sound) only
      obtain ⟨mem', id'⟩ := Table.get_eq_some.1 hc'
      rcases Table.mem_or_of_mem_putAll (changes.cases ▸ mem') with written | old
      · exact leads c' written m (by rwa [show c'.id = c.id from id'])
      · obtain rfl : c' = m := Table.eq_of_key old hm (id'.trans same.id.symm)
        exact .refl _

/-- The committed versions of a case, the newest first. -/
def caseHistory (d : Db) (log : Ledger) (id : Uuid) : List RecoveryCase :=
  log.tails.filterMap fun log => (dbOf d log).cases.get id

theorem caseHistory_pairwise (sound : d.Sound) (only : ∀ v st, allows v st → unmoved v st)
    (legal : Legal (Good settings d allows) log) (id : Uuid) :
    (caseHistory d log id).Pairwise fun later earlier => earlier.Leads later := by
  induction log with
  | nil => cases h : d.cases.get id <;> simp [caseHistory, dbOf, h]
  | cons e log ih =>
    have earlier := ih legal.1
    unfold caseHistory at earlier ⊢
    rw [List.tails, List.filterMap_cons]
    split
    · exact earlier
    next c hc =>
      refine List.pairwise_cons.2 ⟨fun c₀ hc₀ => ?_, earlier⟩
      obtain ⟨log₀, mem, hc₀⟩ := List.mem_filterMap.1 hc₀
      exact leads_of_suffix sound only legal
        (((List.mem_tails _ _).1 mem).trans (List.suffix_cons e log)) hc₀ hc

/-- Runs in which the row of a case is never overwritten in a state the writer has not seen. -/
def unmovedService (settings : Settings) :
    Program Stmt Stmt.Ans Db Err Process Env Claim ExternalReply :=
  { service settings with allows := unmoved }

/-- The history law of every case, in every run whose captured events find the row they read. -/
theorem case_history_law {merchants : Table Merchant} {policies : Table MerchantPolicy}
    {s : Run Stmt Stmt.Ans Db Err Process Claim Row}
    (run : (unmovedService settings).Reaches (.initial merchants policies) s) (id : Uuid) :
    (caseHistory (.initial merchants policies) s.log id).Pairwise
      fun later earlier => earlier.Leads later :=
  caseHistory_pairwise (Db.sound_initial merchants policies) (fun _ _ h => h)
    (run.legal rfl fun _ h => h).1 id

end

/-- A failed payment, the decision on its case, the claim of the action, and a captured event. -/
def sampleRecovery : List (Nat × Move Err Process Env ExternalReply) :=
  (0, .spawn (.webhook expiredInstrument.request)) :: transaction 0 (.numbered 1) 11 ++
  (1, .spawn (.task ⟨(Uuid.ofNat 14).str, 0⟩)) :: transaction 1 (.numbered 2) 1 ++
  transaction 1 (.numbered 3) 14 ++
  (2, .spawn (.task ⟨(Uuid.ofNat 34).str, 0⟩)) :: transaction 2 (.numbered 4) 1 ++
  transaction 2 (.numbered 5) 9 ++
  (3, .spawn (.webhook captured.request)) :: transaction 3 (.numbered 6) 11

/-- The id, the case and the status of every action. -/
def actionStates (d : Db) : List (Uuid × Uuid × RecoveryActionStatus) :=
  d.actions.rows.map fun a => (a.id, a.recoveryCaseId, a.status)

/-- The id, the status and the version of every case. -/
def caseStates (d : Db) : List (Uuid × RecoveryCaseStatus × Int) :=
  d.cases.rows.map fun c => (c.id, c.status, c.version)

/-- The row of a case that is written is as it was read, and there is nothing to claim. -/
def undisturbed (v : Db) : Stmt → Bool
  | .flushCase old _ => (v.cases.get old.id).all (fun r =>
      r.status = old.status && r.version = old.version && r.status ≠ .recovered) &&
    v.actions.rows.all (·.status ≠ .approved)
  | _ => true

def undisturbedService [PyLib] (settings : Settings) :
    Program Stmt Stmt.Ans Db Err Process Env Claim ExternalReply :=
  { service settings with allows := undisturbed }

theorem sampleRecovery_run : let _ : PyLib := .recorded [expiredInstrument, captured]
    ∃ s, (undisturbedService {}).moves (.initial sampleDb) sampleRecovery = some s ∧
      (caseHistory sampleDb s.log (.ofNat 12)).map (·.version) = [6, 5, 5, 5, 2, 2] ∧
      actionStates s.db = [(.ofNat 33, .ofNat 12, .executing)] ∧
      caseStates s.db = [(.ofNat 12, .recovered, 6)] ∧
      s.db.audits.rows.map (·.eventType) = ["recovery_case.eligible", "recovery_case.decision",
        "recovery_action.claimed", "recovery_case.recovered"] := by
  intro _
  have result : ((undisturbedService {}).moves (.initial sampleDb) sampleRecovery).map (fun s =>
      decide ((caseHistory sampleDb s.log (.ofNat 12)).map (·.version) = [6, 5, 5, 5, 2, 2]) &&
        decide (actionStates s.db = [(.ofNat 33, .ofNat 12, .executing)]) &&
        decide (caseStates s.db = [(.ofNat 12, .recovered, 6)]) &&
        decide (s.db.audits.rows.map (·.eventType) = ["recovery_case.eligible",
          "recovery_case.decision", "recovery_action.claimed", "recovery_case.recovered"])) =
      some true := by
    decide +kernel
  obtain ⟨s, run, result⟩ := Option.map_eq_some_iff.1 result
  simp only [Bool.and_eq_true, decide_eq_true_eq, and_assoc] at result
  exact ⟨s, run, result⟩

theorem moves_of_undisturbed [PyLib] {settings : Settings} {allows : Db → Stmt → Bool}
    (more : ∀ v st, undisturbed v st → allows v st)
    {s t : Run Stmt Stmt.Ans Db Err Process Claim Row}
    {ms : List (Nat × Move Err Process Env ExternalReply)}
    (run : (undisturbedService settings).moves s ms = some t) :
    { service settings with allows := allows }.moves s ms = some t :=
  @Program.moves_of_allows Stmt Stmt.Ans Db Row Key Err Process Env Claim ExternalReply _ _ _ _
    (undisturbedService settings) allows more s t ms run

theorem unmoved_of_undisturbed (v : Db) (st : Stmt) (h : undisturbed v st) : unmoved v st := by
  cases st with
  | flushCase old new =>
    simp only [undisturbed, unmoved, Bool.and_eq_true, Option.all_eq_true] at h ⊢
    intro r found
    simp [(h.1 r found).1]
  | _ => rfl

theorem case_history_law_sample :
    ∃ s, (@unmovedService (.recorded [expiredInstrument, captured]) {}).moves
      (.initial sampleDb) sampleRecovery = some s ∧
    (caseHistory sampleDb s.log (.ofNat 12)).map (·.version) = [6, 5, 5, 5, 2, 2] ∧
    (caseHistory sampleDb s.log (.ofNat 12)).Pairwise fun later earlier => earlier.Leads later := by
  let _ : PyLib := .recorded [expiredInstrument, captured]
  obtain ⟨s, run, versions, -⟩ := sampleRecovery_run
  have run : (unmovedService {}).moves (.initial sampleDb) sampleRecovery = some s := by
    unfold unmovedService
    exact moves_of_undisturbed unmoved_of_undisturbed run
  exact ⟨s, run, versions, case_history_law (.moves .refl run) _⟩

/-- The case is decided, and its action claimed, while a captured event is about to write the case
row; the claim commits last. -/
def overtakenRun : List (Nat × Move Err Process Env ExternalReply) :=
  (0, .spawn (.webhook expiredInstrument.request)) :: transaction 0 (.numbered 1) 11 ++
  (1, .spawn (.webhook captured.request)) :: (1, .enter (.numbered 2)) ::
    List.replicate 6 (1, .exec) ++
  (2, .spawn (.task ⟨(Uuid.ofNat 14).str, 0⟩)) :: transaction 2 (.numbered 3) 1 ++
  transaction 2 (.numbered 4) 14 ++
  (3, .spawn (.task ⟨(Uuid.ofNat 44).str, 0⟩)) :: transaction 3 (.numbered 5) 1 ++
  (3, .enter (.numbered 6)) :: List.replicate 7 (3, .exec) ++
  List.replicate 5 (1, .exec) ++ [(1, .finish), (3, .exec), (3, .exec), (3, .finish)]

set_option synthInstance.maxSize 512 in
theorem overtaken_run : ∃ s,
    (@service (.recorded [expiredInstrument, captured]) {}).moves
      (.initial sampleDb) overtakenRun = some s ∧
    (caseHistory sampleDb s.log (.ofNat 12)).map (fun c => (c.status, c.version)) =
      [(.recovered, 3), (.recovered, 3), (.actionScheduled, 5), (.actionScheduled, 5),
        (.eligible, 2), (.eligible, 2)] ∧
    caseStates (dbOf sampleDb s.log.tail) = [(.ofNat 12, .recovered, 3)] ∧
    actionStates (dbOf sampleDb s.log.tail) = [(.ofNat 43, .ofNat 12, .approved)] ∧
    actionStates (dbOf sampleDb s.log) = [(.ofNat 43, .ofNat 12, .executing)] := by
  let _ : PyLib := .recorded [expiredInstrument, captured]
  have result : ((service {}).moves (.initial sampleDb) overtakenRun).map (fun s =>
      ((caseHistory sampleDb s.log (.ofNat 12)).map (fun c => (c.status, c.version)),
        caseStates (dbOf sampleDb s.log.tail), actionStates (dbOf sampleDb s.log.tail),
        actionStates (dbOf sampleDb s.log))) =
      some ([(.recovered, 3), (.recovered, 3), (.actionScheduled, 5), (.actionScheduled, 5),
        (.eligible, 2), (.eligible, 2)], [(.ofNat 12, .recovered, 3)],
        [(.ofNat 43, .ofNat 12, .approved)], [(.ofNat 43, .ofNat 12, .executing)]) := by
    decide +kernel
  obtain ⟨s, run, result⟩ := Option.map_eq_some_iff.1 result
  simp only [Prod.mk.injEq] at result
  exact ⟨s, run, result⟩

/-- The captured event takes the case back from version 5 to version 3. -/
theorem case_history_overtaken :
    ∃ s, (@service (.recorded [expiredInstrument, captured]) {}).Reaches sampleDb s ∧
    ¬ (caseHistory sampleDb s.log (.ofNat 12)).Pairwise fun later earlier =>
      earlier.Leads later := by
  obtain ⟨s, run, history, -⟩ := overtaken_run
  refine ⟨s, .moves .refl run, fun law => ?_⟩
  have versions :
      ((caseHistory sampleDb s.log (.ofNat 12)).map fun c => (c.status, c.version)).Pairwise
      fun later earlier => earlier.2 ≤ later.2 :=
    List.pairwise_map.2 (law.imp fun leads => leads.version)
  rw [history] at versions
  revert versions
  decide

end RecoverAI
