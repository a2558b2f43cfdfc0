import RecoverAI.Concurrency.History

/-!
# Claims of a recovered case

A claim reads its case without a lock and guards the action alone. It is made in time as long as no
case is terminal while one of its executable actions is `APPROVED`. Only a captured event can leave
a case so, where an action was approved after the handler cancelled the open ones.
-/
namespace RecoverAI

open Store

section

variable [PyLib] {T : Type} {db : T → Db} {R : List Row → T → T → Prop} {allows : Db → Stmt → Prop}
  {carried : Option Claim} {t : T} {d' : Db}

/-- A case decided on in this commit: its action ends it exactly where nothing is left to do. -/
def Decided (d d' : Db) (a : RecoveryAction) : Prop :=
  ∃ c ∈ d.cases, c.id = a.recoveryCaseId ∧ c.status = .eligible ∧ ∃ c' ∈ d'.cases, c'.id = c.id ∧
    c'.status ≠ .eligible ∧ c'.status.isTerminal = !a.actionType.executable

/-- Where the actions after a commit come from. -/
theorem Work.acts (h : Work db R allows carried d' t) : ∀ a' ∈ d'.actions,
    (∃ a ∈ (db t).actions, a.Same a' ∧ (a'.status = .approved → a.status = .approved)) ∨
      Decided (db t) d' a' := by
  -- The rows that are written over one of the table's own.
  have old : ∀ {cs as os xs}, (db t).Changes d' cs as os xs →
      (∀ a' ∈ as, ∃ a ∈ (db t).actions, a.Same a' ∧
      (a'.status = .approved → a.status = .approved)) → ∀ a' ∈ d'.actions,
      (∃ a ∈ (db t).actions, a.Same a' ∧ (a'.status = .approved → a.status = .approved)) ∨
        Decided (db t) d' a' := by
    intro cs as os xs changes written a' ha'
    rcases Table.mem_or_of_mem_putAll (changes.actions ▸ ha') with new | old
    · exact .inl (written a' new)
    · exact .inl ⟨a', old, .refl a', fun h => h⟩
  have single : ∀ {a a' : RecoveryAction} {id : Uuid}, (db t).actions.get id = some a → a.Same a' →
      a'.status ≠ .approved → ∀ b ∈ [a'], ∃ a ∈ (db t).actions, a.Same b ∧
        (b.status = .approved → a.status = .approved) := by
    intro a a' id base same left b hb
    obtain rfl := List.mem_singleton.1 hb
    exact ⟨a, (Table.get_eq_some.1 base).1, same, fun h => absurd h left⟩
  cases h with
  | quiet changes | noted _ _ _ _ changes | blocked _ _ changes | created _ _ _ _ changes
  | activated _ _ _ _ _ changes => exact old changes (by simp)
  | @decided env case c ps source s _ _ taken action outbox audit changes =>
    intro a' ha'
    rcases Table.mem_or_of_mem_putAll (changes.actions ▸ ha') with new | kept
    · obtain rfl := List.mem_singleton.1 new
      obtain ⟨mem, id⟩ := Table.get_eq_some.1 taken.base
      refine .inr ⟨c, mem, id, taken.status, c.decided s env.now, changes.case_mem, rfl,
        (finalStatus_ne s).1, ?_⟩
      change s.finalStatus.isTerminal = !s.finalAction.executable
      rcases s.finalStatus_cases with ⟨act, h⟩ | ⟨act, h⟩ | ⟨act, h⟩ <;> rw [h, act] <;> decide
    · exact .inl ⟨a', kept, .refl a', fun h => h⟩
  | cancelled held _ _ changes | claimed held _ _ changes =>
    exact old changes
      (single held.base ⟨rfl, rfl, rfl, rfl, rfl, rfl⟩ fun approved => by cases approved)
  | executed _ _ executing _ base _ changes =>
    refine old changes (single base ⟨rfl, rfl, rfl, rfl, rfl, rfl⟩ ?_)
    simp [Db.patchAction, RecoveryAction.succeeded, Db.changed, executing]
  | failed _ _ executing base _ changes =>
    refine old changes (single base ⟨rfl, rfl, rfl, rfl, rfl, rfl⟩ ?_)
    simp [Db.patchAction, RecoveryAction.unsuccessful, Db.changed, executing]
  | recovered _ _ recovers _ _ changes =>
    refine old changes fun a' ha' => ?_
    obtain ⟨a, ha, rfl⟩ := List.mem_map.1 ha'
    exact ⟨a, (Table.get_eq_some.1 (recovers.actions a ha)).1, ⟨rfl, rfl, rfl, rfl, rfl, rfl⟩,
      fun approved => by cases approved⟩

/-- Where an action becomes `EXECUTING`, it is claimed. -/
theorem Work.executes (h : Work db R allows carried d' t) {a a' : RecoveryAction}
    (ha : a ∈ (db t).actions) (approved : a.status = .approved) (ha' : a' ∈ d'.actions)
    (same : a'.id = a.id) (executing : a'.status = .executing) : ∃ env action case ps,
      Held db R env a.id action a case ps t ∧ case.status.isTerminal = false := by
  have other : ∀ {cs as os xs}, (db t).Changes d' cs as os xs →
      (∀ b ∈ as, b.status ≠ .executing) → False := by
    intro cs as os xs changes written
    rcases Table.mem_or_of_mem_putAll (changes.actions ▸ ha') with new | old
    · exact written a' new executing
    · have : a' = a := Table.eq_of_key old ha same
      rw [this, approved] at executing
      cases executing
  cases h with
  | quiet changes | noted _ _ _ _ changes | blocked _ _ changes | created _ _ _ _ changes
  | activated _ _ _ _ _ changes => exact (other changes (by simp)).elim
  | decided _ _ _ _ changes | cancelled _ _ _ changes =>
    exact (other changes (by simp [newAction])).elim
  | executed _ _ executing _ _ _ changes =>
    refine (other changes ?_).elim
    simp [Db.patchAction, RecoveryAction.succeeded, Db.changed, executing]
  | failed _ _ executing _ _ changes =>
    refine (other changes ?_).elim
    simp [Db.patchAction, RecoveryAction.unsuccessful, Db.changed, executing]
  | recovered _ _ _ _ _ changes =>
    refine (other changes fun b hb => ?_).elim
    obtain ⟨b₀, -, rfl⟩ := List.mem_map.1 hb
    simp [Db.cancelled]
  | @claimed env actionId action b case ps payload _ _ held open_ audit changes =>
    obtain ⟨mem, id⟩ := Table.get_eq_some.1 held.base
    rcases Table.mem_or_of_mem_putAll (changes.actions ▸ ha') with new | old
    · obtain rfl := List.mem_singleton.1 new
      have : b = a := Table.eq_of_key mem ha same
      subst this
      have id : b.id = actionId := id
      exact ⟨env, action, case, ps, id.symm ▸ held, open_⟩
    · have : a' = a := Table.eq_of_key old ha same
      rw [this, approved] at executing
      cases executing

/-- A case row that is written is recovered, or new, or was not terminal before. -/
theorem Work.overwrites (h : Work db R allows carried d' t) (past : Past db R t) : ∃ cs as os xs,
    (db t).Changes d' cs as os xs ∧ ∀ c' ∈ cs, c'.status = .recovered ∨
      ∀ c, (db t).cases.get c'.id = some c →
      c.status.isTerminal = false := by
  have single : ∀ {b b₀ : RecoveryCase} {id : Uuid}, (db t).cases.get id = some b₀ → b.id = b₀.id →
      b₀.status.isTerminal = false → ∀ c' ∈ [b], c'.status = .recovered ∨
        ∀ c, (db t).cases.get c'.id = some c → c.status.isTerminal = false := by
    intro b b₀ id base same open_ c' hc'
    obtain rfl := List.mem_singleton.1 hc'
    refine .inr fun c hc => ?_
    rw [same] at hc
    obtain rfl := Option.some.inj ((Table.get_of_mem (Table.get_eq_some.1 base).1).symm.trans hc)
    exact open_
  have moves : ∀ {new : RecoveryCaseStatus} {case : RecoveryCase} {rows : List Row},
      Moves db R new case rows t → ∀ c' ∈ casesOf rows, c'.status = .recovered ∨
        ∀ c, (db t).cases.get c'.id = some c → c.status.isTerminal = false := by
    intro new case rows h
    cases h with
    | skipped => simp
    | moved base status => exact single base rfl (by rw [status]; rfl)
  cases h with
  | quiet changes | noted _ _ _ _ changes | claimed _ _ _ changes | failed _ _ _ _ _ changes =>
    exact ⟨_, _, _, _, changes, by simp⟩
  | blocked taken _ changes | decided taken _ _ _ changes =>
    exact ⟨_, _, _, _, changes, single taken.base rfl (by rw [taken.status]; rfl)⟩
  | cancelled _ stop _ changes => exact ⟨_, _, _, _, changes, moves stop⟩
  | executed _ _ _ waiting _ _ changes => exact ⟨_, _, _, _, changes, moves waiting⟩
  | created _ absent _ _ changes =>
    refine ⟨_, _, _, _, changes, fun c' hc' => .inr fun c hc => ?_⟩
    obtain rfl := List.mem_singleton.1 hc'
    cases absent.case.symm.trans hc
  | activated found status base _ _ changes =>
    obtain ⟨t₀, h₀, hc⟩ := found
    exact absurd status ((past.sound h₀).notFailed _ (Table.mem_of_find hc).1)
  | recovered _ _ recovers _ _ changes =>
    refine ⟨_, _, _, _, changes, fun b hb => .inl ?_⟩
    rw [List.mem_singleton.1 hb, patchCase_recovered_status recovers.nonterminal]

/-- A terminal case stays as it is, or is recovered. -/
theorem Work.terminal_next (h : Work db R allows carried d' t) (past : Past db R t)
    {c c' : RecoveryCase} (hc : c ∈ (db t).cases) (terminal : c.status.isTerminal)
    (hc' : c' ∈ d'.cases) (same : c'.id = c.id) : c'.status = .recovered ∨ c' = c := by
  obtain ⟨_, _, _, _, changes, written⟩ := h.overwrites past
  rcases Table.mem_or_of_mem_putAll (changes.cases ▸ hc') with new | old
  · refine (written c' new).imp_right fun open_ => ?_
    have := open_ c (same ▸ Table.get_of_mem hc)
    rw [terminal] at this
    cases this
  · exact .inr (Table.eq_of_key old hc same)

theorem Work.stays_terminal (h : Work db R allows carried d' t) (past : Past db R t)
    {c c' : RecoveryCase} (hc : c ∈ (db t).cases) (terminal : c.status.isTerminal)
    (hc' : c' ∈ d'.cases) (same : c'.id = c.id) : c'.status.isTerminal := by
  rcases h.terminal_next past hc terminal hc' same with recovered | rfl
  · rw [recovered]
    rfl
  · exact terminal

end

theorem Moves.case_id {new : RecoveryCaseStatus} {case : RecoveryCase} {rows : List Row} {T : Type}
    {db : T → Db} {R : List Row → T → T → Prop} {t : T} (h : Moves db R new case rows t) :
    ∀ c ∈ casesOf rows, c.id = case.id := by
  cases h with
  | skipped => simp
  | moved base =>
    intro c hc
    rw [List.mem_singleton.1 hc]
    exact (Table.get_eq_some.1 base).2

/-- No executable action of the case is `APPROVED` where its row is written. -/
def unclaimable (v : Db) : Stmt → Bool
  | .flushCase old _ => v.actions.rows.all fun a =>
      !(a.recoveryCaseId = old.id && a.actionType.executable && a.status = .approved)
  | _ => true

/-- An action that ends its case has ended it. -/
def Db.Ended (d : Db) : Prop := ∀ a ∈ d.actions, ∀ c ∈ d.cases, c.id = a.recoveryCaseId →
  a.actionType.executable = false → c.status.isTerminal

/-- No action of a terminal case waits to be claimed. -/
def Db.Closed (d : Db) : Prop := ∀ a ∈ d.actions, ∀ c ∈ d.cases, c.id = a.recoveryCaseId →
  a.actionType.executable → c.status.isTerminal → a.status ≠ .approved

section

variable [PyLib] {settings : Settings} {d : Db} {allows : Db → Stmt → Bool} {pid : Nat}
  {log log' : Ledger} {ws : List Row}

theorem terminal_of_suffix (sound : d.Sound) (legal : Legal (Good settings d allows) log')
    (h : log <:+ log') {c c' : RecoveryCase} (hc : c ∈ (dbOf d log).cases)
    (terminal : c.status.isTerminal) (hc' : c' ∈ (dbOf d log').cases) (same : c'.id = c.id) :
    c'.status.isTerminal := by
  obtain ⟨before, rfl⟩ := h
  induction before generalizing c' with
  | nil => exact Table.eq_of_key hc' hc same ▸ terminal
  | cons e before ih =>
    have legal₀ : Legal (Good settings d allows) (before ++ log) := legal.1
    obtain ⟨m, hm, grown⟩ := (grows_of_suffix legal₀ (List.suffix_append before log)).cases c hc
    have := ih grown.id legal₀ hm
    cases e with
    | call => exact Table.eq_of_key hc' hm (same.trans grown.id.symm) ▸ this
    | commit pid p us q =>
      exact legal.2.2.work.stays_terminal (legal.1.past sound) hm this hc'
        (same.trans grown.id.symm)

/-- The actions of a case whose row a process holds are the ones it saw. -/
theorem acts_of_since (legal : Legal (Good settings d allows) log') (h : Since pid ws log log')
    {id : Uuid} (held : Key.recoveryCase id ∈ locksOf ws) : ∀ a' ∈ (dbOf d log').actions,
      a'.recoveryCaseId = id → ∃ a ∈ (dbOf d log).actions, a.Same a' ∧
        (a'.status = .approved → a.status = .approved) := by
  induction h with
  | refl => exact fun a' ha' _ => ⟨a', ha', .refl a', fun h => h⟩
  | @step m before e other free _ ih =>
    intro a' ha' caseId
    obtain ⟨a, ha, same, status⟩ : ∃ a ∈ (dbOf d m).actions, a.Same a' ∧
        (a'.status = .approved → a.status = .approved) := by
      cases e with
      | call => exact ⟨a', ha', .refl a', fun h => h⟩
      | commit pid p us q =>
        refine (legal.2.2.work.acts a' ha').resolve_right ?_
        rintro ⟨c, hc, cid, eligible, c', hc', cid', other, -⟩
        have kept := (protects_case id ((dbOf d m).cases.get id)).view (free _ held) rfl
        have before : (dbOf d m).cases.get id = some c := caseId ▸ cid ▸ Table.get_of_mem hc
        have after : (view (dbOf d m) us).cases.get id = some c' :=
          caseId ▸ cid ▸ cid' ▸ Table.get_of_mem hc'
        obtain rfl := Option.some.inj (before.symm.trans (kept.symm.trans after))
        exact other eligible
    obtain ⟨a₀, ha₀, same₀, status₀⟩ := ih legal.1 a ha (same.recoveryCaseId.symm.trans caseId)
    exact ⟨a₀, ha₀, same₀.trans same, fun h => status₀ (status h)⟩

theorem ended_of_legal (sound : d.Sound) (ended : d.Ended)
    (legal : Legal (Good settings d allows) log) : (dbOf d log).Ended := by
  induction log with
  | nil => exact ended
  | cons e log ih =>
    cases e with
    | call => exact ih legal.1
    | commit pid p us q =>
      intro a' ha' c' hc' id act
      have now := sound_of_legal sound legal.1 log (List.suffix_refl _)
      rcases legal.2.2.work.acts a' ha' with
        ⟨a, ha, same, -⟩ | ⟨c, hc, cid, -, c'', hc'', cid', -, terminal⟩
      · obtain ⟨c, hc, cid, -⟩ := now.action a ha
        have terminal := ih legal.1 a ha c hc cid (same.actionType ▸ act)
        exact legal.2.2.work.stays_terminal (legal.1.past sound) hc terminal hc'
          (id.trans (same.recoveryCaseId.trans cid.symm))
      · have : c' = c'' := Table.eq_of_key hc' hc'' (id.trans (cid.symm.trans cid'.symm))
        rw [this, terminal, act]
        rfl

/-- A recovery closes its case where no action was approved behind its back. -/
theorem Recovers.closes (legal : Legal (Good settings d allows) log) {merchant : Merchant}
    {entity : RazorpayPaymentEntity} {amountMinor : Int} {currency : String} {env : Draws}
    {payment : Payment} {inbox : WebhookEvent} {prs : List Row} {case r : RecoveryCase}
    {cancels : List RecoveryAction}
    (recovers : Recovers (dbOf d) (Since pid)
      (fun v st => allows v st) inbox prs case r cancels log)
    (pay : WritesCaptured (dbOf d) (Since pid) env merchant entity amountMinor currency
      payment prs log) (only : ∀ v st, allows v st → unclaimable v st) :
    ∀ a ∈ (dbOf d log).actions.putAll (cancels.map Db.cancelled), a.recoveryCaseId = case.id →
      a.actionType.executable → a.status ≠ .approved := by
  intro a ha caseId act approved
  obtain ⟨t₀, t₁, -, -, granted, base, since⟩ := recovers.read
  have unwritten : a ∉ cancels.map Db.cancelled := by
    intro written
    obtain ⟨b, -, rfl⟩ := List.mem_map.1 written
    cases approved
  obtain ⟨old, free⟩ := Table.kept_of_mem_putAll ha unwritten
  have id : r.id = case.id := (Table.get_eq_some.1 base).2
  have locked : Key.recoveryCase case.id ∈
      locksOf (prs ++ cancels.map (fun a => .action (Db.cancelled a)) ++
      [.recoveryCase (Db.patchCase case (case.become .recovered) r)]) :=
    mem_locksOf.2 ⟨_, List.mem_append_right _ (List.mem_singleton.2 rfl), by
      simp [locks, Row.keys, Db.patchCase, id]⟩
  obtain ⟨a₁, ha₁, same, status⟩ := acts_of_since legal since locked a old caseId
  -- The action was there, and approved, when the handler wrote the case row.
  have seen : a₁ ∈ (view (dbOf d t₁) (.webhookEvent inbox :: prs ++
      cancels.map fun a => .action (Db.cancelled a))).actions := by
    have kept := Table.mem_putAll_of_free ha₁ fun r hr e => free r hr (e.trans same.id.symm)
    simpa [List.filterMap_cons, Row.action?, pay.tables, List.filterMap_map,
      Function.comp_def] using kept
  have none := only _ _ granted
  simp only [unclaimable, List.all_eq_true] at none
  have := none a₁ seen
  simp [status approved, same.recoveryCaseId.symm.trans caseId, same.actionType ▸ act] at this

/-- Where a commit ends a case, its actions are not to be claimed any more. -/
theorem Work.closes (sound : d.Sound) (legal : Legal (Good settings d allows) log)
    (only : ∀ v st, allows v st → unclaimable v st) {carried : Option Claim} {d' : Db}
    (h : Work (dbOf d) (Since pid) (fun v st => allows v st) carried d' log) {c' : RecoveryCase}
    (hc' : c' ∈ d'.cases) (terminal : c'.status.isTerminal) :
    (∃ c ∈ (dbOf d log).cases, c.id = c'.id ∧ c.status.isTerminal) ∨
      ∀ a ∈ d'.actions, a.recoveryCaseId = c'.id → a.actionType.executable →
        a.status ≠ .approved := by
  have now := sound_of_legal sound legal log (List.suffix_refl _)
  have kept : ∀ {cs as os xs}, (dbOf d log).Changes d' cs as os xs → c' ∉ cs →
      ∃ c ∈ (dbOf d log).cases, c.id = c'.id ∧ c.status.isTerminal := by
    intro cs as os xs changes unwritten
    exact ⟨c', (Table.kept_of_mem_putAll (changes.cases ▸ hc') unwritten).1, rfl, terminal⟩
  have other : ∀ {cs as os xs}, (dbOf d log).Changes d' cs as os xs →
      (∀ b ∈ cs, b.status.isTerminal = false) → ∃ c ∈ (dbOf d log).cases, c.id = c'.id ∧
        c.status.isTerminal := by
    intro cs as os xs changes open_
    refine kept changes fun written => ?_
    rw [open_ c' written] at terminal
    cases terminal
  have waiting : ∀ {case : RecoveryCase} {rows : List Row},
      Moves (dbOf d) (Since pid) .waiting case rows log →
      ∀ b ∈ casesOf rows, b.status.isTerminal = false := by
    intro case rows h b hb
    rw [h.status b hb]
    decide
  cases h with
  | quiet changes | noted _ _ _ _ changes | claimed _ _ _ changes | failed _ _ _ _ _ changes =>
    exact .inl (other changes (by simp))
  | blocked _ _ changes =>
    exact .inl (other changes fun b hb => by rw [List.mem_singleton.1 hb]; rfl)
  | executed _ _ _ moves _ _ changes => exact .inl (other changes (waiting moves))
  | created _ _ _ _ changes =>
    refine .inl (other changes fun b hb => ?_)
    rw [List.mem_singleton.1 hb]
    rfl
  | activated found status base _ _ changes =>
    obtain ⟨t₀, h₀, hc⟩ := found
    exact absurd status (((legal.past sound).sound h₀).notFailed _ (Table.mem_of_find hc).1)
  | @decided env case c ps source s _ _ taken _ _ _ changes =>
    by_cases written : c' = c.decided s env.now
    · refine .inr fun a ha caseId act => ?_
      obtain ⟨mem, id⟩ := Table.get_eq_some.1 taken.base
      rcases Table.mem_or_of_mem_putAll (changes.actions ▸ ha) with new | old
      · obtain rfl := List.mem_singleton.1 new
        rw [written] at terminal
        have scheduled : s.finalStatus = .actionScheduled := s.finalStatus_eq_actionScheduled.2 act
        rw [RecoveryCase.decided, scheduled] at terminal
        cases terminal
      · exact absurd (caseId.trans (written ▸ rfl))
          ((now.none_of_eligible mem taken.status).1 a old)
    · exact .inl (kept changes fun h => written (List.mem_singleton.1 h))
  | @cancelled env actionId action a case ps stops payload _ _ held stop _ changes =>
    by_cases written : c' ∈ casesOf stops
    · refine .inr fun b hb caseId _ approved => ?_
      have unwritten : b ∉ [{ a with status := RecoveryActionStatus.cancelled }] := by
        intro h
        rw [List.mem_singleton.1 h] at approved
        cases approved
      obtain ⟨old, free⟩ := Table.kept_of_mem_putAll (changes.actions ▸ hb) unwritten
      have same := held.same (legal.past sound)
      obtain ⟨t₀, t₁, -, -, -, found⟩ := held.seen
      have own : a.recoveryCaseId = c'.id := by
        rw [same.recoveryCaseId,
          ← show case.id = action.recoveryCaseId from (Table.get_eq_some.1 found).2]
        exact (stop.case_id c' written).symm
      have : b = a := now.oneAction b old a (Table.get_eq_some.1 held.base).1
        (caseId.trans own.symm)
      exact free _ (List.mem_singleton.2 rfl) (this ▸ rfl)
    · exact .inl (kept changes written)
  | @recovered env merchant entity amountMinor currency inbox payment case r prs cancels payload ors
      correlationId _ _ pay chosen recovers _ _ changes =>
    by_cases written : c' ∈ [Db.patchCase case (case.become .recovered) r]
    · refine .inr fun a ha caseId => ?_
      rw [List.mem_singleton.1 written] at caseId
      have id : r.id = case.id := (Table.get_eq_some.1 recovers.base).2
      exact recovers.closes legal pay only a (changes.actions ▸ ha) (caseId.trans id)
    · exact .inl (kept changes written)

theorem closed_of_legal (sound : d.Sound) (closed : d.Closed)
    (only : ∀ v st, allows v st → unclaimable v st) (legal : Legal (Good settings d allows) log) :
    (dbOf d log).Closed := by
  induction log with
  | nil => exact closed
  | cons e log ih =>
    cases e with
    | call => exact ih legal.1
    | commit pid p us q =>
      intro a' ha' c' hc' id act terminal approved
      have now := sound_of_legal sound legal.1 log (List.suffix_refl _)
      have work := legal.2.2.work
      rcases work.closes sound legal.1 only hc' terminal with ⟨c, hc, cid, ended⟩ | closed
      · rcases work.acts a' ha' with ⟨a, ha, same, status⟩ | ⟨c₀, hc₀, cid₀, eligible, -⟩
        · exact ih legal.1 a ha c hc (cid.trans (id.trans same.recoveryCaseId))
            (same.actionType ▸ act) ended
            (status approved)
        · have : c = c₀ := Table.eq_of_key hc hc₀ (cid.trans (id.trans cid₀.symm))
          rw [this, eligible] at ended
          cases ended
      · exact closed a' ha' id.symm act approved

/-- No commit that takes an action from `APPROVED` to `EXECUTING` comes after
one that ended its case. -/
def NoStaleClaim (d : Db) (log : Ledger) : Prop := ∀ e log', e :: log' <:+ log →
  ∀ a ∈ (dbOf d log').actions, a.status = .approved →
  ∀ a' ∈ (dbOf d (e :: log')).actions, a'.id = a.id → a'.status = .executing →
  ∀ log₀, log₀ <:+ log' → ∀ c ∈ (dbOf d log₀).cases, c.id = a.recoveryCaseId →
    c.status.isTerminal = false

theorem noStaleClaim_of_legal (sound : d.Sound) (ended : d.Ended) (closed : d.Closed)
    (only : ∀ v st, allows v st → unclaimable v st) (legal : Legal (Good settings d allows) log) :
    NoStaleClaim d log := by
  intro e log' before a ha approved a' ha' same executing log₀ earlier c hc id
  have legal := legal.suffix before
  have now := sound_of_legal sound legal.1 log' (List.suffix_refl _)
  by_contra terminal
  rw [Bool.not_eq_false] at terminal
  -- The case has been terminal ever since.
  obtain ⟨c', hc', grown⟩ := (grows_of_suffix legal.1 earlier).cases c hc
  have terminal' := terminal_of_suffix sound legal.1 earlier hc terminal hc' grown.id
  have link := grown.id.trans id
  cases e with
  | call =>
    have : a' = a := Table.eq_of_key ha' ha same
    rw [this, approved] at executing
    cases executing
  | commit pid p us q =>
    obtain ⟨env, action, case, ps, held, open_⟩ :=
      legal.2.2.work.executes ha approved ha' same executing
    cases act : a.actionType.executable with
    | true =>
      exact closed_of_legal sound closed only legal.1 a ha c' hc' link act terminal' approved
    | false =>
      -- The claim read the case after the action, and the action had ended it.
      have read := held.same (legal.1.past sound)
      obtain ⟨t₀, t₁, h₀, h₁, foundAction, foundCase⟩ := held.seen
      obtain ⟨mem, -⟩ := Table.get_eq_some.1 foundAction
      obtain ⟨memCase, cid⟩ := Table.get_eq_some.1 foundCase
      have legal₁ := legal.1.suffix h₁.suffix
      obtain ⟨b, hb, grownAction⟩ := (grows_of_suffix legal₁ h₀.suffix).actions action mem
      obtain ⟨heldMem, hid⟩ := Table.get_eq_some.1 held.base
      have type : b.actionType.executable = false := by
        rw [grownAction.actionType, ← read.actionType, Table.eq_of_key heldMem ha hid, act]
      have := ended_of_legal sound ended legal₁ b hb case memCase
        (cid.trans grownAction.recoveryCaseId.symm) type
      rw [open_] at this
      cases this

/-- Runs in which no captured event writes the row of a case that has an action to be claimed. -/
def unclaimableService (settings : Settings) :
    Program Stmt Stmt.Ans Db Err Process Env Claim ExternalReply :=
  { service settings with allows := unclaimable }

theorem no_stale_claim {merchants : Table Merchant} {policies : Table MerchantPolicy}
    {s : Run Stmt Stmt.Ans Db Err Process Claim Row}
    (run : (unclaimableService settings).Reaches (.initial merchants policies) s) :
    NoStaleClaim (.initial merchants policies) s.log :=
  noStaleClaim_of_legal (Db.sound_initial merchants policies) (fun _ h => absurd h List.not_mem_nil)
    (fun _ h => absurd h List.not_mem_nil) (fun _ _ h => h) (run.legal rfl fun _ h => h).1

end

theorem unclaimable_of_undisturbed (v : Db) (st : Stmt) (h : undisturbed v st) :
    unclaimable v st := by
  cases st with
  | flushCase old new =>
    simp only [undisturbed, unclaimable, Bool.and_eq_true, List.all_eq_true] at h ⊢
    intro a ha
    simp [of_decide_eq_true (h.2 a ha)]
  | _ => rfl

theorem no_stale_claim_sample :
    ∃ s, (@unclaimableService (.recorded [expiredInstrument, captured]) {}).moves
      (.initial sampleDb) sampleRecovery = some s ∧
    actionStates s.db = [(.ofNat 33, .ofNat 12, .executing)] ∧
      caseStates s.db = [(.ofNat 12, .recovered, 6)] ∧
    NoStaleClaim sampleDb s.log := by
  let _ : PyLib := .recorded [expiredInstrument, captured]
  obtain ⟨s, run, -, actions, cases, -⟩ := sampleRecovery_run
  have run : (unclaimableService {}).moves (.initial sampleDb) sampleRecovery = some s := by
    unfold unclaimableService
    exact moves_of_undisturbed unclaimable_of_undisturbed run
  exact ⟨s, run, actions, cases, no_stale_claim (.moves .refl run)⟩

/-- The last claim is made on a case that is `RECOVERED` already. -/
theorem stale_claim_overtaken : ∃ s,
    (@service (.recorded [expiredInstrument, captured]) {}).Reaches sampleDb s ∧
      ¬ NoStaleClaim sampleDb s.log := by
  obtain ⟨s, run, -, cases, before, after⟩ := overtaken_run
  refine ⟨s, .moves .refl run, fun none => ?_⟩
  have first : ∀ {α : Type} {l : List α} {x : α}, l = [x] →
      x ∈ l := fun h => h ▸ List.mem_singleton_self _
  obtain ⟨c, hc, eq⟩ := List.mem_map.1 (first cases)
  obtain ⟨a, ha, eqA⟩ := List.mem_map.1 (first before)
  obtain ⟨b, hb, eqB⟩ := List.mem_map.1 (first after)
  simp only [Prod.mk.injEq] at eq eqA eqB
  obtain ⟨e, log', split⟩ : ∃ e log', s.log = e :: log' := by
    cases h : s.log with
    | nil =>
      rw [h] at hc
      exact absurd hc List.not_mem_nil
    | cons e log' => exact ⟨e, log', rfl⟩
  rw [split] at hc ha hb
  have := none e log' (split ▸ List.suffix_refl _) a ha eqA.2.2 b hb
    (eqB.1.trans eqA.1.symm) eqB.2.2 log'
    (List.suffix_refl _) c hc (eq.1.trans eqA.2.1.symm)
  rw [eq.2.1] at this
  cases this

end RecoverAI
