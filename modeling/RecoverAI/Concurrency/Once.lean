import RecoverAI.Concurrency.Ledger

/-!
# One decision, one call

What a reachable ledger says about a case as a whole: one action, one decision and one scheduled
event, and at most one external call. A claim takes its action out of `APPROVED`, and no commit
takes an action back, so two processes never claim the same one.
-/
namespace RecoverAI

open Store

section

variable [PyLib] {T : Type} {db : T → Db} {R : List Row → T → T → Prop} {allows : Db → Stmt → Prop}
  {carried : Option Claim} {t : T} {d' : Db}

/-- Only a new action is `APPROVED`. -/
theorem Work.unapproves (h : Work db R allows carried d' t) :
    ∃ cs as os xs, (db t).Changes d' cs as os xs ∧
    ∀ a ∈ as, a.status = .approved → (db t).actions.get a.id = none := by
  have other : ∀ a : RecoveryAction, a.status ≠ .approved →
      ∀ b ∈ [a], b.status = .approved → (db t).actions.get b.id = none :=
    fun a ne b hb approved => absurd (List.mem_singleton.1 hb ▸ approved) ne
  cases h with
  | quiet changes | noted _ _ _ _ changes | blocked _ _ changes =>
    exact ⟨_, _, _, _, changes, by simp⟩
  | created _ _ _ _ changes | activated _ _ _ _ _ changes => exact ⟨_, _, _, _, changes, by simp⟩
  | decided _ action _ _ changes =>
    exact ⟨_, _, _, _, changes, fun a ha _ => List.mem_singleton.1 ha ▸ action.action⟩
  | cancelled _ _ _ changes | claimed _ _ _ changes =>
    exact ⟨_, _, _, _, changes, other _ (by simp)⟩
  | executed _ _ executing _ _ _ changes =>
    exact ⟨_, _, _, _, changes, other _ (by
      simp [Db.patchAction, RecoveryAction.succeeded, Db.changed, executing])⟩
  | failed _ _ executing _ _ changes =>
    exact ⟨_, _, _, _, changes, other _ (by
      simp [Db.patchAction, RecoveryAction.unsuccessful, Db.changed, executing])⟩
  | recovered _ _ _ _ _ changes =>
    refine ⟨_, _, _, _, changes, fun a ha approved => ?_⟩
    obtain ⟨a₀, -, rfl⟩ := List.mem_map.1 ha
    cases approved

end

section

variable [PyLib] {settings : Settings} {d : Db} {allows : Db → Stmt → Bool} {pid pid' : Nat}
  {log : Ledger} {claim claim' : Claim}

/-- The action has left `APPROVED`. -/
def Db.Unapproved (d : Db) (actionId : Uuid) : Prop :=
  ∃ a ∈ d.actions, a.id = actionId ∧ a.status ≠ .approved

/-- An action that has left `APPROVED` does not come back. -/
theorem Db.Unapproved.event {e : Event Process Claim Row} {actionId : Uuid}
    (h : (dbOf d log).Unapproved actionId) (legal : Legal (Good settings d allows) (e :: log)) :
    (dbOf d (e :: log)).Unapproved actionId := by
  obtain ⟨a, ha, rfl, left⟩ := h
  cases e with
  | call => exact ⟨a, ha, rfl, left⟩
  | commit pid p us q =>
    obtain ⟨a', ha', same⟩ := legal.grows.actions a ha
    refine ⟨a', ha', same.id, fun approved => ?_⟩
    obtain ⟨_, _, _, _, changes, fresh⟩ := legal.2.2.work.unapproves
    rcases Table.mem_or_of_mem_putAll (changes.actions ▸ ha') with written | old
    · have absent := fresh a' written approved
      rw [same.id] at absent
      exact Table.get_eq_none.1 absent a ha rfl
    · exact left (Table.eq_of_key ha old same.id.symm ▸ approved)

/-- The commit of a claim: it takes an approved action. -/
theorem Good.takes {p : Process} {us : List Row} {job : Job}
    (good : Good settings d allows log (.commit pid p us (.external job claim))) :
    (∃ a, (dbOf d log).actions.get claim.actionId = some a ∧ a.status = .approved) ∧
      ∃ a, (view (dbOf d log) us).actions.get claim.actionId = some a ∧ a.status = .executing := by
  obtain ⟨-, commits⟩ := good
  generalize hq : Process.external job claim = q at commits
  cases commits with
  | webhook | eligible | unnamed | success => cases hq
  | task effect => cases effect <;> cases hq
  | failure effect =>
    unfold afterFailure at hq
    split at hq <;> cases hq
  | @claim job payload actionId env result us t id effect =>
    cases effect with
    | refused | cancelled => cases hq
    | @claimed c action a case ps details _ held open_ from_ audit =>
      cases hq
      have id : claim.actionId = actionId :=
        let ⟨_, _, _, _, found, _⟩ := held.seen
        from_.actionId.trans (Table.get_eq_some.1 found).2
      have base := id ▸ held.base
      refine ⟨⟨_, base, held.approved⟩, { a with status := .executing }, ?_, rfl⟩
      rw [← show a.id = claim.actionId from (Table.get_eq_some.1 base).2]
      simp [List.filterMap_cons, Row.action?, held.policy.tables, Table.get_put, Store.key]

theorem Claims.unapproved (legal : Legal (Good settings d allows) log) (h : Claims log pid claim) :
    (dbOf d log).Unapproved claim.actionId := by
  obtain ⟨job, p, us, mem⟩ := h
  induction log with
  | nil => cases mem
  | cons e log ih =>
    rcases List.mem_cons.1 mem with rfl | mem
    · obtain ⟨a, base, executing⟩ := (Good.takes legal.2).2
      obtain ⟨ha, id⟩ := Table.get_eq_some.1 base
      refine ⟨a, ha, id, ?_⟩
      rw [executing]
      exact nofun
    · exact (ih legal.1 mem).event legal

/-- Two processes never claim the same action. -/
theorem Claims.unique (legal : Legal (Good settings d allows) log) (h : Claims log pid claim)
    (h' : Claims log pid' claim') (same : claim.actionId = claim'.actionId) : pid = pid' := by
  obtain ⟨job, p, us, mem⟩ := h
  obtain ⟨job', p', us', mem'⟩ := h'
  -- The later of two claims would take an action that had left `APPROVED`.
  have clash : ∀ {log : Ledger} {pid pid' : Nat} {claim claim' : Claim} {p us job},
      Legal (Good settings d allows) log → Claims log pid claim → claim.actionId = claim'.actionId →
      ¬ Good settings d allows log (.commit pid' p us (.external job claim')) := by
    intro log pid pid' claim claim' p us job legal h same good
    obtain ⟨a, ha, id, left⟩ := h.unapproved legal
    obtain ⟨b, found, approved⟩ := (Good.takes good).1
    obtain ⟨hb, id'⟩ := Table.get_eq_some.1 found
    exact left (Table.eq_of_key ha hb (id.trans (same.trans id'.symm)) ▸ approved)
  induction log with
  | nil => cases mem
  | cons e log ih =>
    rcases List.mem_cons.1 mem with rfl | mem <;> rcases List.mem_cons.1 mem' with eq | mem'
    · cases eq
      rfl
    · exact absurd legal.2 (clash legal.1 ⟨_, _, _, mem'⟩ same.symm)
    · exact absurd (eq ▸ legal.2) (clash legal.1 ⟨_, _, _, mem⟩ same)
    · exact ih legal.1 mem mem'

/-- The external calls of a run, the newest first. -/
def calls (log : Ledger) : List Claim :=
  log.filterMap fun
    | .call _ claim => some claim
    | .commit .. => none

theorem Store.Legal.call (legal : Legal (Good settings d allows) log) (h : claim ∈ calls log) :
    Carries d log (some claim) ∧ ∃ pid, .call pid claim ∈ log ∧ Claims log pid claim := by
  induction log with
  | nil => cases h
  | cons e log ih =>
    have old : claim ∈ calls log → Carries d (e :: log) (some claim) ∧
        ∃ pid, .call pid claim ∈ e :: log ∧ Claims (e :: log) pid claim := by
      intro h
      obtain ⟨carries, pid, mem, claims⟩ := ih legal.1 h
      exact ⟨carries.event legal.grows, pid, List.mem_cons_of_mem e mem, claims.event e⟩
    cases e with
    | commit => exact old h
    | call pid c =>
      rcases List.mem_cons.1 h with rfl | h
      · obtain ⟨job, own⟩ := legal.2
        exact ⟨own.carries.event legal.grows, pid, List.mem_cons_self ..,
          (own.claimed _ rfl).event _⟩
      · exact old h

/-- No two calls are for one action, and none for one case. -/
theorem calls_nodup (sound : d.Sound) (legal : Legal (Good settings d allows) log) :
    ((calls log).map Claim.actionId).Nodup ∧ ((calls log).map Claim.caseId).Nodup := by
  induction log with
  | nil => exact ⟨List.nodup_nil, List.nodup_nil⟩
  | cons e log ih =>
    obtain ⟨actions, cases⟩ := ih legal.1
    cases e with
    | commit => exact ⟨actions, cases⟩
    | call pid claim =>
      obtain ⟨job, own⟩ := legal.2
      have fresh : ∀ claim' ∈ calls log, claim.actionId ≠ claim'.actionId := by
        intro claim' h same
        obtain ⟨-, pid', mem, claims'⟩ := legal.1.call h
        have same := (own.claimed _ rfl).unique legal.1 claims' same
        exact absurd (own.before _ mem same.symm) (lt_irrefl _)
      have fresh' : ∀ claim' ∈ calls log, claim.caseId ≠ claim'.caseId := by
        intro claim' h same
        obtain ⟨a, ha, id, caseId⟩ := own.carries claim rfl
        obtain ⟨b, hb, id', caseId'⟩ := (legal.1.call h).1 claim' rfl
        have one := (sound_of_legal sound legal.1 log (List.suffix_refl _)).oneAction a ha b hb
          (caseId.trans (same.trans caseId'.symm))
        exact fresh claim' h (id.symm.trans (one ▸ id'))
      simp only [calls, List.filterMap_cons, List.map_cons, List.nodup_cons, List.mem_map,
        not_exists, not_and]
      exact ⟨⟨fun c hc e => fresh c hc e.symm, actions⟩, fun c hc e => fresh' c hc e.symm, cases⟩

variable {merchants : Table Merchant} {policies : Table MerchantPolicy}

/-- A reachable run of the service, seen as a ledger. -/
theorem Store.Program.Reaches.legal {s : Run Stmt Stmt.Ans Db Err Process Claim Row}
    {pr : Program Stmt Stmt.Ans Db Err Process Env Claim ExternalReply}
    (code : pr.act = Process.act settings) (starts : ∀ p, pr.starts p → p.starts)
    (run : pr.Reaches d s) : Legal (Good settings d pr.allows) s.log ∧ s.db = dbOf d s.log :=
  have ok := (outline code starts).sound run
  ⟨ok.legal, ok.db⟩

/-- Whatever is interleaved, redelivered or crashes, a case gets one action, one decision and one
scheduled event over a whole run, and one external call is made for the action and for the case. -/
theorem effectively_once {s t : Run Stmt Stmt.Ans Db Err Process Claim Row}
    {ms : List (Nat × Move Err Process Env ExternalReply)}
    (run : (service settings).Reaches (.initial merchants policies) s)
    (later : (service settings).moves s ms = some t) :
    (∀ a ∈ s.db.actions, ∀ b ∈ t.db.actions, a.recoveryCaseId = b.recoveryCaseId → a.id = b.id) ∧
    (∀ x ∈ s.db.audits, ∀ y ∈ t.db.audits, x.eventType = "recovery_case.decision" →
      y.eventType = "recovery_case.decision" → x.entityId = y.entityId → x.id = y.id) ∧
    (∀ o ∈ s.db.outbox, ∀ o' ∈ t.db.outbox, o.eventType = "recovery_case.action_scheduled" →
      o'.eventType = "recovery_case.action_scheduled" → o.aggregateId = o'.aggregateId →
        o.id = o'.id) ∧
    ((calls t.log).map Claim.actionId).Nodup ∧ ((calls t.log).map Claim.caseId).Nodup := by
  have start := Db.sound_initial merchants policies
  obtain ⟨-, hs⟩ := run.legal rfl fun _ h => h
  obtain ⟨legal, ht⟩ := (run.moves later).legal rfl fun _ h => h
  have sound := sound_of_legal start legal t.log (List.suffix_refl _)
  have grows := grows_of_suffix legal (Program.moves_log later)
  rw [hs, ht]
  refine ⟨fun a ha b hb same => ?_, fun x hx y hy tx ty same => ?_,
    fun o ho o' ho' type type' same => ?_, calls_nodup start legal⟩
  · obtain ⟨a', ha', grown⟩ := grows.actions a ha
    exact grown.id.symm.trans
      (congrArg _ (sound.oneAction a' ha' b hb (grown.recoveryCaseId.trans same)))
  · exact congrArg _ (sound.oneDecision x (grows.audits x hx) y hy tx ty same)
  · obtain ⟨p, hp, grown⟩ := grows.outbox o ho
    exact grown.id.symm.trans
      (congrArg _ (sound.oneScheduled p hp o' ho' (grown.eventType.trans type) type'
      (grown.aggregateId.trans same)))

end

/-- A failed payment, its decision, its claim and its call. -/
def sampleCall : List (Nat × Move Err Process Env ExternalReply) :=
  (0, .spawn (.webhook expiredInstrument.request)) :: transaction 0 (.numbered 1) 11 ++
  (1, .spawn (.task ⟨(Uuid.ofNat 14).str, 0⟩)) :: transaction 1 (.numbered 2) 1 ++
  transaction 1 (.numbered 3) 14 ++
  (2, .spawn (.task ⟨(Uuid.ofNat 34).str, 0⟩)) :: transaction 2 (.numbered 4) 1 ++
  transaction 2 (.numbered 5) 9 ++ [(2, .call ⟨fun _ => .timeout, .ofNat 8, .ofNat 9⟩)]

theorem effectively_once_sample : ∃ s,
    (@service (.recorded [expiredInstrument]) {}).moves (.initial sampleDb) sampleCall = some s ∧
    (calls s.log).length = 1 ∧ ((calls s.log).map Claim.caseId).Nodup := by
  let _ : PyLib := .recorded [expiredInstrument]
  have one : ((service {}).moves (.initial sampleDb) sampleCall).map
      (fun s => (calls s.log).length) =
      some 1 := by decide +kernel
  obtain ⟨s, run, one⟩ := Option.map_eq_some_iff.1 one
  exact ⟨s, run, one, (effectively_once (.refl) run).2.2.2.2⟩

end RecoverAI
