import RecoverAI.Runs.Redelivery

/-!
# Work that is accounted for

A claim is carried by one process, its action is `EXECUTING` all the while, and the commit that ends
the carrying finalizes it. Where no process crashes, each published event is with the broker or with
a process, so an open case has something that will drive it on, or the record of what gave up.
-/
namespace RecoverAI

open Store

/-- The status that a finalization gives to its action. -/
def Process.verdict : Process → Option RecoveryActionStatus
  | .success .. => some .executed
  | .failure .. => some .failed
  | _ => none

theorem Process.verdict_ne {p : Process} {verdict : RecoveryActionStatus}
    (ends : p.verdict = some verdict) : verdict ≠ .executing := by
  cases p <;> cases ends <;> exact nofun

theorem Db.Absent.audit_not_mem {d : Db} {x : AuditEvent} (h : d.Absent (.audit x)) :
    x ∉ d.audits := fun mem =>
  Table.get_eq_none.1 (h (.audit x.id) (by simp [Row.keys])) x mem rfl

section

variable [PyLib] {settings : Settings} {allows : Db → Stmt → Prop} {d d' : Db} {us : List Row}
  {p q : Process} {claim : Claim}

/-- A process that starts to carry a claim has just moved its action from
`APPROVED` to `EXECUTING`. -/
theorem Commits.takes (h : Commits id World.Alone settings allows p us q d)
    (carries : q.claim? = some claim) :
    (∃ a ∈ d.actions, a.id = claim.actionId ∧ a.status = .approved) ∧
      ∃ a ∈ (view d us).actions, a.id = claim.actionId ∧ a.status = .executing := by
  cases h with
  | webhook | eligible | unnamed | success => cases carries
  | task effect => cases effect <;> cases carries
  | failure =>
    unfold afterFailure at carries
    split at carries <;> cases carries
  | @claim job payload actionId _ result us _ _ effect =>
    cases effect with
    | refused | cancelled => cases carries
    | @claimed c action a case ps details _ held open_ from_ audit =>
      cases carries
      obtain ⟨rfl, -, mem, approved, -⟩ := held.alone
      refine ⟨⟨action, mem, from_.actionId.symm, approved⟩,
        { action with status := .executing }, ?_, from_.actionId.symm, rfl⟩
      simp [List.filterMap_cons, Row.action?, held.policy.tables]

/-- A carrier works on the event of its action. -/
theorem Process.carrier (p : Process) (carries : p.claim? = some claim) : ∃ job, p.job? = some job ∧
    ∀ d o, p.Knows d o → o.eventType = scheduledEvent ∧ o.actionId? = some claim.actionId := by
  cases p <;> cases carries <;> exact ⟨_, rfl, fun d o knows => ⟨knows.1, knows.2.1⟩⟩

/-- What the commit of a finalization has done to an action of a case. -/
structure Finalized (d d' : Db) (claim : Claim) (verdict : RecoveryActionStatus) : Prop where
  before : ∃ a ∈ d.actions, a.id = claim.actionId ∧ a.status = .executing
  after : ∃ a ∈ d'.actions, a.id = claim.actionId ∧ a.status = verdict
  cases : ∀ id, d'.cases.get id = if id = claim.caseId ∧ verdict = .executed then
    (d.cases.get id).map fun c => if c.status = .actionScheduled then c.become .waiting else c
      else d.cases.get id
  told : ∃ x ∈ d'.audits, x ∉ d.audits ∧ x.entityId = claim.actionId.str ∧
    x.eventType = if verdict = .executed then "recovery_action.executed"
      else "recovery_action.failed"

omit [PyLib] in
/-- A guarded transition out of `ACTION_SCHEDULED` that runs alone moves its case on,
if it is in this status. -/
theorem Moves.applied {new : RecoveryCaseStatus} {case : RecoveryCase} {rows : List Row}
    (moves : Moves id World.Alone new case rows d) (found : d.cases.get case.id = some case)
    (key : Uuid) :
    (d.cases.putAll (casesOf rows)).get key = if key = case.id then
      (d.cases.get key).map fun c => if c.status = .actionScheduled then c.become new else c
        else d.cases.get key := by
  rcases moves.alone found with ⟨other, none⟩ | ⟨scheduled, moved⟩
  · rw [none, Table.putAll_nil]
    split
    next own => simp [own, found, other]
    next => rfl
  · rw [moved, Table.putAll_cons, Table.putAll_nil, Table.get_put]
    have same : Store.key (case.become new) = case.id := rfl
    rw [same]
    split
    next own => simp [own, found, scheduled]
    next => rfl

/-- The finalization of an action that is `EXECUTING` takes effect. -/
theorem Commits.finalized (h : Commits id World.Alone settings allows p us q d) (sound : d.Sound)
    (backs : World.Backs d p.claim?) (carries : p.claim? = some claim)
    (executing : ∃ a ∈ d.actions, a.id = claim.actionId ∧ a.status = .executing)
    {verdict : RecoveryActionStatus} (ends : p.verdict = some verdict) :
    Finalized d (view d us) claim verdict := by
  obtain ⟨a, ha, id, status⟩ := executing
  obtain ⟨c, hc, own, -⟩ := sound.action a ha
  have read : d.actions.get claim.actionId = some a := id ▸ Table.get_of_mem ha
  have link : a.recoveryCaseId = claim.caseId := backs.backed claim carries _ a rfl read
  have finds : Finds d claim a c := ⟨read, link ▸ own ▸ Table.get_of_mem hc⟩
  cases h with
  | webhook | eligible | unnamed | task | claim => cases ends
  | @success job _ _ _ env _ _ effect =>
    cases carries
    cases ends
    cases effect with
    | idle missed =>
      obtain ⟨_, rfl, free⟩ := missed a c
      exact absurd ⟨finds, status⟩ free
    | @executed action r case rows column payload _ found executing moves base audit =>
      obtain ⟨foundAction, mem, foundCase, link'⟩ := found.alone rfl backs
      obtain rfl : action = r := Option.some.inj (foundAction.symm.trans base)
      refine ⟨⟨a, ha, id, status⟩,
        ⟨action.succeeded env.now column, ?_, (Table.get_eq_some.1 base).2, rfl⟩, fun key => ?_, _,
        ?_, audit.audit_not_mem, ?_, rfl⟩
      · rw [patchAction_succeeded]
        simp [List.filterMap_cons, Row.action?, moves.tables]
      · have rest : casesOf
            (rows ++ [.action (Db.patchAction action (action.succeeded env.now column) action)] ++
            [.audit (actionAudit env case action "recovery_action.executed" payload)]) =
              casesOf rows := by
          simp [List.filterMap_cons, Row.case?]
        have own : claim.caseId = case.id :=
          (backs.backed claim rfl _ action rfl foundAction).symm.trans link'
        rw [view_cases, rest, own]
        simpa using moves.applied foundCase key
      · simp [List.filterMap_cons, Row.audit?, moves.tables]
      · exact congrArg Uuid.str (Table.get_eq_some.1 base).2
  | @failure job _ _ env _ _ effect =>
    cases carries
    cases ends
    cases effect with
    | idle missed =>
      obtain ⟨_, rfl, free⟩ := missed a c
      exact absurd finds free
    | noted found other =>
      obtain ⟨foundAction, -⟩ := found.alone rfl backs
      exact absurd (Option.some.inj (read.symm.trans foundAction) ▸ status) other
    | @failed action r case message payload _ found executing base audit =>
      obtain ⟨foundAction, mem, -⟩ := found.alone rfl backs
      obtain rfl : action = r := Option.some.inj (foundAction.symm.trans base)
      refine ⟨⟨a, ha, id, status⟩,
        ⟨action.unsuccessful message, ?_, (Table.get_eq_some.1 base).2, rfl⟩, fun key => ?_, _, ?_,
        audit.audit_not_mem, ?_, rfl⟩
      · rw [patchAction_unsuccessful]
        simp [List.filterMap_cons, Row.action?]
      · simp [view_cases, List.filterMap_cons, Row.case?]
      · simp [List.filterMap_cons, Row.audit?]
      · exact congrArg Uuid.str (Table.get_eq_some.1 base).2

end

/-! ## Carriers -/

namespace World

variable [PyLib] {settings : Settings} {u v w : World} {turn : Turn} {p q : Process} {pid : Nat}
  {actionId : Uuid}

/-- A process moves on, or crashes. -/
theorem Does.forward (does : Does settings w turn v) (at_ : w.processes[pid]? = some (some p)) :
    none ∈ v.processes ∨ ∃ q, v.processes[pid]? = some (some q) ∧ Slot settings w v pid q := by
  have longer : w.processes.length ≤ v.processes.length := by
    cases does <;> simp [set]
  obtain ⟨here, -⟩ := List.getElem?_eq_some_iff.1 at_
  obtain ⟨next, slot⟩ : ∃ next, v.processes[pid]? = some next :=
    ⟨_, List.getElem?_eq_getElem (here.trans_le longer)⟩
  cases next with
  | none => exact .inl (List.mem_of_getElem? slot)
  | some q => exact .inr ⟨q, slot, does.slot slot⟩

/-- A turn moves one process at most. -/
theorem Does.elsewhere (does : Does settings w turn v) :
    ∃ mover : Nat, ∀ pid ≠ mover, v.processes[pid]? = w.processes[pid]? := by
  have appended : ∀ (p : Option Process), ∃ mover : Nat, ∀ pid ≠ mover,
      (w.processes ++ [p])[pid]? = w.processes[pid]? := by
    refine fun p => ⟨w.processes.length, fun pid other => ?_⟩
    rcases Nat.lt_or_gt_of_ne other with old | beyond
    · exact List.getElem?_append_left old
    · rw [List.getElem?_eq_none (by simp; omega), List.getElem?_eq_none beyond.le]
  have written : ∀ (mover : Nat) (p : Option Process), ∀ pid ≠ mover,
      (w.processes.set mover p)[pid]? = w.processes[pid]? :=
    fun mover p pid other => List.getElem?_set_ne other.symm
  cases does with
  | tick | limits | dispatched | undispatched => exact ⟨0, fun _ _ => rfl⟩
  | request | deliver => exact appended _
  | commit | abort | fault | call | retry | crash => exact ⟨_, written _ _⟩

end World

def World.Carries (w : World) (pid : Nat) (actionId : Uuid) : Prop :=
  ∃ p claim, w.processes[pid]? = some (some p) ∧ p.claim? = some claim ∧ claim.actionId = actionId

/-- Each action that a process carries a claim on is `EXECUTING`, and no other
process carries one on it. -/
structure World.Exclusive (w : World) : Prop where
  executing : ∀ pid actionId, w.Carries pid actionId → ∃ a ∈ w.db.actions, a.id = actionId ∧
    a.status = .executing
  single : ∀ pid pid' actionId, w.Carries pid actionId → w.Carries pid' actionId → pid = pid'

theorem World.exclusive_start (now : Time) (merchants : Table Merchant)
    (policies : Table MerchantPolicy) : (start now merchants policies).Exclusive := by
  constructor
  · rintro pid actionId ⟨p, claim, at_, -⟩
    cases at_
  · rintro pid pid' actionId ⟨p, claim, at_, -⟩
    cases at_

namespace World

variable [PyLib] {settings : Settings} {u v w : World} {turn : Turn} {p q : Process} {pid : Nat}
  {actionId : Uuid}

/-- A process that carries a claim carried it before, or the turn was its claim. -/
theorem Does.carries (does : Does settings w turn v) (carries : v.Carries pid actionId) :
    w.Carries pid actionId ∨ (∃ a ∈ w.db.actions, a.id = actionId ∧ a.status = .approved) ∧
      ∃ a ∈ v.db.actions, a.id = actionId ∧ a.status = .executing := by
  obtain ⟨p, claim, at_, carried, rfl⟩ := carries
  cases does.slot at_ with
  | kept before => exact .inl ⟨p, claim, before, carried, rfl⟩
  | requested | delivered | retried => cases carried
  | committed before code clock run =>
    obtain ⟨us, eq, commits⟩ := commits_of_run code run
    exact .inr (eq ▸ commits.takes carried)
  | aborted e before code =>
    exact absurd (carried.symm.trans (Process.unclaimed_of_ended (ended_abort code e))) nofun
  | @called job claim' reply before =>
    have same : claim' = claim := by
      unfold afterExternal at carried
      split at carried <;> exact Option.some.inj carried
    exact .inl ⟨_, claim, before, same ▸ rfl, rfl⟩

/-- Only its carrier takes an action out of `EXECUTING`, and puts the claim down. -/
theorem Does.stays_executing (does : Does settings w turn v) (exclusive : w.Exclusive)
    {a : RecoveryAction} (ha : a ∈ w.db.actions) (executing : a.status = .executing)
    (carries : v.Carries pid a.id) (old : w.Carries pid a.id) :
    ∃ a' ∈ v.db.actions, a'.id = a.id ∧ a'.status = .executing := by
  have unmoved : v.db.actions = w.db.actions → ∃ a' ∈ v.db.actions, a'.id = a.id ∧
      a'.status = .executing :=
    fun eq => ⟨a, eq ▸ ha, rfl, executing⟩
  have grows := does.grows
  cases does with
  | @commit mover env p body abort q d at_ code clock run =>
    obtain ⟨a', ha', same⟩ := grows.actions a ha
    refine ⟨a', ha', same.id, ?_⟩
    rcases acts_of_run code run a' ha' with ⟨b, hb, sameAction, acts⟩ | ⟨-, -, absent⟩
    · obtain rfl : b = a := Table.eq_of_key hb ha (sameAction.id.symm.trans same.id)
      cases acts with
      | kept eq => exact eq ▸ executing
      | cancelled other => exact absurd executing other
      | claimed _ _ approved => exact absurd (approved.symm.trans executing) nofun
      | @finalized claim carried named =>
        -- The mover is the carrier; as it goes on carrying, it would have to claim what is not
        -- `APPROVED`.
        obtain rfl : pid = mover := exclusive.single _ _ _ old ⟨p, claim, at_, carried, named⟩
        obtain ⟨q', claim', at_', carried', named'⟩ := carries
        have here : (w.processes.set pid (some q))[pid]? = some (some q) :=
          List.getElem?_set_self (List.getElem?_eq_some_iff.1 at_).1
        obtain rfl : q = q' := Option.some.inj (Option.some.inj (here.symm.trans at_'))
        obtain ⟨us, -, commits⟩ := commits_of_run code run
        obtain ⟨⟨b', hb', id, approved⟩, -⟩ := commits.takes carried'
        obtain rfl : b' = b := Table.eq_of_key hb' ha (id.trans named')
        exact absurd (approved.symm.trans executing) nofun
    · exact absurd same.id.symm (Table.get_eq_none.1 absent a ha)
  | _ => exact unmoved rfl

theorem Does.exclusive (does : Does settings w turn v) (exclusive : w.Exclusive) : v.Exclusive where
  executing pid actionId carries := by
    rcases does.carries carries with old | ⟨-, executing⟩
    · obtain ⟨a, ha, rfl, executing⟩ := exclusive.executing pid actionId old
      exact does.stays_executing exclusive ha executing carries old
    · exact executing
  single pid pid' actionId carries carries' := by
    obtain ⟨mover, elsewhere⟩ := does.elsewhere
    -- An action that one process has claimed just now was `APPROVED`, so no other one
    -- carried a claim on it.
    have clash : ∀ {pid pid'}, v.Carries pid actionId → v.Carries pid' actionId → pid' ≠ mover →
        w.Carries pid actionId := by
      intro pid pid' carries carries' other
      refine (does.carries carries).resolve_right fun ⟨⟨a, ha, id, approved⟩, _⟩ => ?_
      obtain ⟨p', claim', at_', carried'⟩ := carries'
      obtain ⟨b, hb, id', executing⟩ :=
        exclusive.executing pid' actionId ⟨p', claim',
          (elsewhere pid' other).symm.trans at_', carried'⟩
      obtain rfl : b = a := Table.eq_of_key hb ha (id'.trans id.symm)
      exact absurd (approved.symm.trans executing) nofun
    have kept : ∀ {pid}, v.Carries pid actionId → pid ≠ mover → w.Carries pid actionId := by
      rintro pid ⟨p, claim, at_, carried⟩ other
      exact ⟨p, claim, (elsewhere pid other).symm.trans at_, carried⟩
    by_cases moved : pid' = mover
    · by_cases moved' : pid = mover
      · exact moved'.trans moved.symm
      · exact exclusive.single _ _ _ (kept carries moved') (clash carries' carries moved')
    · exact exclusive.single _ _ _ (clash carries carries' moved) (kept carries' moved)

theorem Reaches.exclusive (h : u.Reaches settings w) (exclusive : u.Exclusive) : w.Exclusive := by
  induction h with
  | refl => exact exclusive
  | step turn _ move ih => exact (next_does move).exclusive ih

end World

/-! ## Accounts -/

section

variable [PyLib] {allows : Db → Stmt → Prop} {carried : Option Claim} {d d' : Db}

/-- An event that a commit adds is `PENDING`. -/
theorem Work.pending (h : Work id World.Alone allows carried d' d) (sound : d.Sound) :
    ∀ o' ∈ d'.outbox, o' ∈ d.outbox ∨ o'.status = .pending := by
  have written : ∀ {cs as os xs}, d.Changes d' cs as os xs → (∀ o ∈ os, o.status = .pending) →
      ∀ o' ∈ d'.outbox, o' ∈ d.outbox ∨ o'.status = .pending := fun changes new o' ho' =>
    (Table.mem_or_of_mem_putAll (changes.outbox ▸ ho')).symm.imp_right (new o')
  cases h with
  | quiet changes | noted _ _ _ _ changes | blocked _ _ changes | cancelled _ _ _ changes
  | claimed _ _ _ changes
  | executed _ _ _ _ _ _ changes | failed _ _ _ _ _ changes => exact written changes (by simp)
  | decided _ _ outbox _ changes =>
    exact written changes fun o ho => (adds_scheduled outbox).1.eq o ho ▸ rfl
  | created _ _ _ event changes | recovered _ _ _ _ event changes =>
    exact written changes fun o ho => (adds_ensured event).eq o ho ▸ rfl
  | activated found status =>
    obtain ⟨_, rfl, found⟩ := found
    exact absurd status (sound.notFailed _ (Table.mem_of_find found).1)

/-- A commit that leaves a case waiting for an action found it so, or created the action. -/
theorem Work.schedules (h : Work id World.Alone allows carried d' d) (sound : d.Sound) :
    ∀ c' ∈ d'.cases, c'.status = .actionScheduled →
      c' ∈ d.cases ∨ ∃ a ∈ d'.actions, a.recoveryCaseId = c'.id := by
  have written : ∀ {cs as os xs}, d.Changes d' cs as os xs →
      (∀ c ∈ cs, c.status = .actionScheduled →
      ∃ a ∈ d'.actions, a.recoveryCaseId = c.id) → ∀ c' ∈ d'.cases, c'.status = .actionScheduled →
        c' ∈ d.cases ∨ ∃ a ∈ d'.actions, a.recoveryCaseId = c'.id := fun changes new c' hc' waits =>
    (Table.mem_or_of_mem_putAll (changes.cases ▸ hc')).symm.imp_right fun mem => new c' mem waits
  have moves : ∀ {new : RecoveryCaseStatus} {case : RecoveryCase} {rows : List Row},
      new ≠ .actionScheduled →
      Moves id World.Alone new case rows d → ∀ c ∈ casesOf rows, c.status ≠ .actionScheduled := by
    intro new case rows other h
    cases h with
    | skipped => simp
    | moved => exact fun c hc => List.mem_singleton.1 hc ▸ other
  cases h with
  | quiet changes | noted _ _ _ _ changes | claimed _ _ _ changes | failed _ _ _ _ _ changes =>
    exact written changes (by simp)
  | blocked _ _ changes =>
    exact written changes fun c hc waits => absurd (List.mem_singleton.1 hc ▸ waits) nofun
  | decided taken _ _ _ changes =>
    refine written changes fun c hc _ => ⟨_, changes.action_mem, ?_⟩
    exact (List.mem_singleton.1 hc ▸ (Table.get_eq_some.1 taken.base).2.symm)
  | cancelled _ stop _ changes =>
    exact written changes fun c hc waits => absurd waits (moves (by decide) stop c hc)
  | executed _ _ _ waiting _ _ changes =>
    exact written changes fun c hc waits => absurd waits (moves (by decide) waiting c hc)
  | created _ _ _ _ changes =>
    exact written changes fun c hc waits => absurd (List.mem_singleton.1 hc ▸ waits) nofun
  | activated found status =>
    obtain ⟨_, rfl, found⟩ := found
    exact absurd status (sound.notFailed _ (Table.mem_of_find found).1)
  | recovered _ chosen recovers _ _ changes =>
    obtain ⟨rfl, -, -⟩ := recovers.alone chosen
    rw [patchCase_become] at changes
    exact written changes fun c hc waits => absurd (List.mem_singleton.1 hc ▸ waits) nofun

end

/-- The broker has a message of the event, or a process got one. -/
def World.InHand (w : World) (event : String) : Prop :=
  (∃ job ∈ w.queue, job.outboxEventId = event) ∨ ∃ p, some p ∈ w.processes ∧ p.On event

namespace World

variable [PyLib] {settings : Settings} {u v w : World} {turn : Turn} {p q : Process} {pid : Nat}
  {event : String}

/-- The task that carried the claim on the action has raised. -/
def Dropped (w : World) (a : RecoveryAction) : Prop :=
  ∃ o ∈ w.db.outbox, o.eventType = scheduledEvent ∧ o.actionId? = some a.id ∧
    ∃ job retried, some (.raised job retried) ∈ w.processes ∧ job.outboxEventId = o.id.str

structure Accounted (w : World) : Prop where
  published : ∀ o ∈ w.db.outbox, o.status = .published → w.InHand o.id.str
  executing : ∀ a ∈ w.db.actions, a.status = .executing → (∃ pid, w.Carries pid a.id) ∨ w.Dropped a
  scheduled : ∀ c ∈ w.db.cases, c.status = .actionScheduled →
    ∃ a ∈ w.db.actions, a.recoveryCaseId = c.id

theorem accounted_start (now : Time) (merchants : Table Merchant)
    (policies : Table MerchantPolicy) : (start now merchants policies).Accounted := by
  constructor <;> intro r hr <;> exact absurd hr List.not_mem_nil

/-- A process keeps the event it works on. -/
theorem Slot.on (slot : Slot settings w v pid q) (sound : w.Sound) (tracked : w.Tracked)
    (at_ : w.processes[pid]? = some (some p)) (on : p.On event) : q.On event := by
  obtain ⟨job, works, named⟩ := on
  cases slot with
  | kept before =>
    obtain rfl := Option.some.inj (Option.some.inj (at_.symm.trans before))
    exact ⟨job, works, named⟩
  | requested r free | delivered queued free => exact absurd (at_.symm.trans free) nofun
  | committed before code clock run =>
    obtain rfl := Option.some.inj (Option.some.inj (at_.symm.trans before))
    obtain ⟨o, announces, knows⟩ := tracked.processes p (List.mem_of_getElem? at_) job works
    exact ⟨job,
      (knows_of_run code run sound.db tracked.led works announces.mem announces.names knows).1,
      named⟩
  | aborted e before code =>
    obtain rfl := Option.some.inj (Option.some.inj (at_.symm.trans before))
    exact ⟨job, (job_abort code e).1.trans works, named⟩
  | called reply before =>
    obtain rfl := Option.some.inj (Option.some.inj (at_.symm.trans before))
    refine ⟨job, ?_, named⟩
    unfold afterExternal
    split <;> exact works
  | retried before =>
    obtain rfl := Option.some.inj (Option.some.inj (at_.symm.trans before))
    exact ⟨job, works, named⟩

/-- A message is not lost: it stays with the broker or goes to a process, which keeps it. -/
theorem Does.inHand (does : Does settings w turn v) (sound : w.Sound) (tracked : w.Tracked)
    (alive : none ∉ v.processes) (h : w.InHand event) : v.InHand event := by
  rcases h with ⟨job, queued, named⟩ | ⟨p, mem, on⟩
  · have kept : job ∈ v.queue → v.InHand event := fun mem => .inl ⟨job, mem, named⟩
    cases does with
    | dispatched | undispatched | retry => exact kept (List.mem_append_left _ queued)
    | @deliver n again job' at_ =>
      by_cases taken : again ∨ ∃ i, i ≠ n ∧ w.queue[i]? = some job
      · refine kept ?_
        change job ∈ if again then w.queue else w.queue.eraseIdx n
        split
        next => exact queued
        next other => exact List.mem_eraseIdx_iff_getElem?.2 (taken.resolve_left other)
      · obtain ⟨i, found⟩ := List.mem_iff_getElem?.1 queued
        obtain ⟨-, only⟩ := not_or.1 taken
        obtain rfl : i = n := Classical.byContradiction fun other => only ⟨i, other, found⟩
        obtain rfl : job' = job := Option.some.inj (at_.symm.trans found)
        exact .inr ⟨.task job', List.mem_append_right _ (List.mem_singleton.2 rfl),
          job', rfl, named⟩
    | _ => exact kept queued
  · obtain ⟨pid, at_⟩ := List.mem_iff_getElem?.1 mem
    rcases does.forward at_ with crashed | ⟨q, slot, came⟩
    · exact absurd crashed alive
    · exact .inr ⟨q, List.mem_of_getElem? slot, came.on sound tracked at_ on⟩

/-- The finalization of an action by the process that carries its claim. -/
theorem finalized_of_run {body : Env → Tx Process} {abort : Err → Process} {env : Env} {d' : Db}
    {claim : Claim} (sound : w.Sound) (exclusive : w.Exclusive)
    (at_ : w.processes[pid]? = some (some p)) (carries : p.claim? = some claim)
    (code : p.act settings = .txn body abort) (run : (body env).run w.db = .ok (q, d')) :
    ∃ verdict, p.verdict = some verdict ∧ Finalized w.db d' claim verdict := by
  have executing := exclusive.executing pid _ ⟨p, claim, at_, carries, rfl⟩
  have ends : ∃ verdict, p.verdict = some verdict := by
    cases p with
    | success | failure => exact ⟨_, rfl⟩
    | external => cases code
    | _ => cases carries
  obtain ⟨verdict, ends⟩ := ends
  obtain ⟨us, rfl, commits⟩ := commits_of_run code run
  exact ⟨verdict, ends,
    commits.finalized sound.db (sound.claims _ (List.mem_of_getElem? at_)) carries executing ends⟩

/-- A task that is cut short raises. -/
theorem abort_raised {body : Env → Tx Process} {abort : Err → Process} {job : Job}
    (code : p.act settings = .txn body abort) (works : p.job? = some job) (e : Err) :
    ∃ retried, abort e = .raised job retried := by
  cases p <;> cases code <;> cases works <;> exact taskError_eq job e

/-- What an action is executing with is not lost. -/
theorem Does.executing (does : Does settings w turn v) (sound : w.Sound) (tracked : w.Tracked)
    (exclusive : w.Exclusive) (alive : none ∉ v.processes) {a a' : RecoveryAction}
    (same : a'.id = a.id) (ha' : a' ∈ v.db.actions) (executing : a'.status = .executing)
    (h : (∃ pid, w.Carries pid a.id) ∨ w.Dropped a) :
    (∃ pid, v.Carries pid a'.id) ∨ v.Dropped a' := by
  have advances := does.advances sound
  have moves : ∀ {pid p}, w.processes[pid]? = some (some p) →
      ∃ q, v.processes[pid]? = some (some q) ∧ Slot settings w v pid q := fun at_ =>
    (does.forward at_).resolve_left alive
  have dropped : ∀ {o : OutboxEvent} {job : Job} {retried : Bool}, o ∈ w.db.outbox →
      o.eventType = scheduledEvent →
      o.actionId? = some a.id → some (.raised job retried) ∈ v.processes →
        job.outboxEventId = o.id.str →
        v.Dropped a' := by
    intro o job retried ho type named mem names
    obtain ⟨o', ho', sameEvent, -⟩ := advances.kept o ho
    refine ⟨o', ho', sameEvent.eventType.trans type, ?_, job, retried, mem,
      names.trans (congrArg _ sameEvent.id.symm)⟩
    rw [OutboxEvent.actionId?, sameEvent.payload, same]
    exact named
  rcases h with ⟨pid, p, claim, at_, carried, named⟩ |
    ⟨o, ho, type, named, job, retried, mem, names⟩
  · obtain ⟨q, slot, came⟩ := moves at_
    cases came with
    | kept before =>
      obtain rfl := Option.some.inj (Option.some.inj (at_.symm.trans before))
      exact .inl ⟨pid, p, claim, slot, carried, named.trans same.symm⟩
    | requested r free | delivered queued free => cases at_.symm.trans free
    | committed before code clock run =>
      obtain rfl := Option.some.inj (Option.some.inj (at_.symm.trans before))
      obtain ⟨verdict, ends, finalized⟩ := finalized_of_run sound exclusive at_ carried code run
      obtain ⟨b, hb, id, status⟩ := finalized.after
      obtain rfl : b = a' := Table.eq_of_key hb ha' (id.trans (named.trans same.symm))
      exact absurd (status.symm.trans executing) (Process.verdict_ne ends)
    | @aborted _ body abort e before code =>
      obtain rfl := Option.some.inj (Option.some.inj (at_.symm.trans before))
      obtain ⟨job, works, about⟩ := p.carrier carried
      obtain ⟨o, announces, knows⟩ := tracked.processes p (List.mem_of_getElem? at_) job works
      obtain ⟨type, actionId⟩ := about w.db o knows
      obtain ⟨retried, raised⟩ := abort_raised code works e
      exact .inr (dropped announces.mem type (actionId.trans (congrArg some named))
        (raised ▸ List.mem_of_getElem? slot) announces.names)
    | called reply before =>
      obtain rfl := Option.some.inj (Option.some.inj (at_.symm.trans before))
      refine .inl ⟨pid, _, claim, slot, ?_, named.trans same.symm⟩
      unfold afterExternal
      split <;> exact carried
    | retried before =>
      obtain rfl := Option.some.inj (Option.some.inj (at_.symm.trans before))
      cases carried
  · obtain ⟨pid, at_⟩ := List.mem_iff_getElem?.1 mem
    obtain ⟨q, slot, came⟩ := moves at_
    refine .inr ?_
    cases came with
    | kept before =>
      obtain rfl := Option.some.inj (Option.some.inj (at_.symm.trans before))
      exact dropped ho type named (List.mem_of_getElem? slot) names
    | requested r free | delivered queued free => cases at_.symm.trans free
    | committed before code | aborted _ before code =>
      obtain rfl := Option.some.inj (Option.some.inj (at_.symm.trans before))
      cases code
    | called reply before => cases Option.some.inj (Option.some.inj (at_.symm.trans before))
    | retried before =>
      cases Option.some.inj (Option.some.inj (at_.symm.trans before))
      exact dropped ho type named (List.mem_of_getElem? slot) names

theorem Does.published (does : Does settings w turn v) (sound : w.Sound) (tracked : w.Tracked)
    (alive : none ∉ v.processes) (h : w.Accounted) :
    ∀ o ∈ v.db.outbox, o.status = .published → v.InHand o.id.str := by
  have old : ∀ o ∈ w.db.outbox, o.status = .published → v.InHand o.id.str :=
    fun o ho published => does.inHand sound tracked alive (h.published o ho published)
  cases does with
  | commit at_ code clock run =>
    intro o ho published
    rcases (work_of_run code run).pending sound.db o ho with before | pending
    · exact old o before published
    · exact absurd (pending.symm.trans published) nofun
  | dispatched picks =>
    intro o ho published
    rcases mem_outbox_of_dispatch ho with before | ⟨offer, offered, mem, rfl⟩
    · exact old o before published
    · have due := (OutboxEvent.isDue_iff.1 (picks.free _ (mem_offers offered).1).2.1).1
      cases answer : offer.answer with
      | accepted =>
        refine .inl ⟨⟨offer.event.id.str, 0⟩, List.mem_append_right _ ?_, by simp [Offer.row]⟩
        exact List.mem_filterMap.2 ⟨offer, offered, by simp [Offer.message, answer]⟩
      | refused =>
        simp only [Offer.row, answer, OutboxEvent.offered, due] at published
        split at published <;> cases published
  | _ => exact old

theorem Does.accounted (does : Does settings w turn v) (sound : w.Sound) (tracked : w.Tracked)
    (exclusive : w.Exclusive) (alive : none ∉ v.processes) (h : w.Accounted) : v.Accounted where
  published := does.published sound tracked alive h
  executing a' ha' executing := by
    have stays : ∀ a ∈ w.db.actions, a.status = .executing → a'.id = a.id →
        (∃ pid, v.Carries pid a'.id) ∨ v.Dropped a' := fun a ha before same =>
      does.executing sound tracked exclusive alive same ha' executing (h.executing a ha before)
    cases does with
    | @commit pid _ _ _ _ q _ at_ code clock run =>
      rcases acts_of_run code run a' ha' with ⟨a, ha, same, acts⟩ | ⟨-, approved, -⟩
      · cases acts with
        | kept eq => exact stays a ha (eq ▸ executing) same.id
        | cancelled _ status => exact absurd (executing.symm.trans status) nofun
        | claimed _ _ _ _ carried =>
          obtain ⟨claim, carried, named⟩ := carried
          have here : (w.processes.set pid (some q))[pid]? = some (some q) :=
            List.getElem?_set_self (List.getElem?_eq_some_iff.1 at_).1
          exact .inl ⟨pid, q, claim, here, carried, named.trans same.id.symm⟩
        | finalized _ _ _ after =>
          rcases after with status | status <;> exact absurd (executing.symm.trans status) nofun
      · exact absurd (executing.symm.trans approved) nofun
    | _ => exact stays a' ha' executing rfl
  scheduled c' hc' waits := by
    have stays : c' ∈ w.db.cases → ∃ a ∈ v.db.actions, a.recoveryCaseId = c'.id := by
      intro hc
      obtain ⟨a, ha, own⟩ := h.scheduled c' hc waits
      obtain ⟨a', ha', same⟩ := does.grows.actions a ha
      exact ⟨a', ha', same.recoveryCaseId.trans own⟩
    cases does with
    | commit at_ code clock run =>
      exact ((work_of_run code run).schedules sound.db c' hc' waits).elim stays id
    | _ => exact stays hc'

/-- A crashed process stays where it was. -/
theorem Does.crashed (does : Does settings w turn v) (h : none ∈ w.processes) :
    none ∈ v.processes := by
  obtain ⟨pid, at_⟩ := List.mem_iff_getElem?.1 h
  have written : ∀ {mover : Nat} {p : Process} {new : Option Process}, w.processes[mover]? =
      some (some p) →
      none ∈ w.processes.set mover new := by
    intro mover p new moves
    have other : mover ≠ pid := by
      rintro rfl
      exact absurd (moves.symm.trans at_) nofun
    exact List.mem_of_getElem? ((List.getElem?_set_ne other).trans at_)
  cases does with
  | tick | limits | dispatched | undispatched => exact h
  | request | deliver => exact List.mem_append_left _ h
  | commit moves | abort moves | fault moves | call moves | retry moves => exact written moves
  | crash mover =>
    by_cases same : mover = pid
    · exact List.mem_of_getElem? (same ▸ List.getElem?_set_self (List.getElem?_eq_some_iff.1 at_).1)
    · exact List.mem_of_getElem? ((List.getElem?_set_ne same).trans at_)

theorem Reaches.accounted (h : u.Reaches settings w) (sound : u.Sound) (tracked : u.Tracked)
    (exclusive : u.Exclusive) (alive : none ∉ w.processes) (accounted : u.Accounted) :
    w.Accounted := by
  induction h with
  | refl => exact accounted
  | step turn before move ih =>
    have does := next_does move
    exact does.accounted (before.sound sound) (before.tracked sound tracked)
      (before.exclusive exclusive) alive
      (ih fun crashed => alive (does.crashed crashed))

end World

/-! ## What drives a case -/

/-- The event that asks for the next step of the case. -/
def OutboxEvent.Leads (o : OutboxEvent) (c : RecoveryCase) : Prop :=
  o.aggregateId = c.id.str ∧ (o.eventType = eligibleEvent ∧ c.status = .eligible ∨
    o.eventType = scheduledEvent ∧ c.status = .actionScheduled)

inductive Driven (w : World) (c : RecoveryCase) : Prop
  | pending (o : OutboxEvent) (ho : o ∈ w.db.outbox) (leads : o.Leads c)
      (status : o.status = .pending)
  /-- The dispatcher has given the event up. -/
  | exhausted (o : OutboxEvent) (ho : o ∈ w.db.outbox) (leads : o.Leads c)
      (status : o.status = .failed)
  | queued (o : OutboxEvent) (ho : o ∈ w.db.outbox) (leads : o.Leads c) (job : Job)
      (queued : job ∈ w.queue) (names : job.outboxEventId = o.id.str)
  | running (o : OutboxEvent) (ho : o ∈ w.db.outbox) (leads : o.Leads c) (p : Process)
      (mem : some p ∈ w.processes) (on : p.On o.id.str) (active : p.ended = false)
  | raised (o : OutboxEvent) (ho : o ∈ w.db.outbox) (leads : o.Leads c) (job : Job) (retried : Bool)
      (mem : some (.raised job retried) ∈ w.processes) (names : job.outboxEventId = o.id.str)
  /-- The provider call has failed for good. -/
  | failed (a : RecoveryAction) (ha : a ∈ w.db.actions) (own : a.recoveryCaseId = c.id)
      (status : a.status = .failed)

/-- The action of a case that waits for it is on its way, or has failed. -/
theorem status_of_scheduled {type : RecoveryActionType} {status : RecoveryActionStatus}
    (fits : .actionScheduled ∈ caseStatuses type status) :
    status = .approved ∨ status = .executing ∨ status = .failed := by
  revert fits
  cases type <;> cases status <;> decide

section

variable [PyLib] {settings : Settings} {now : Time} {merchants : Table Merchant}
  {policies : Table MerchantPolicy} {w v : World} {p : Process} {pid : Nat} {claim : Claim}
  {c : RecoveryCase}

/-- An event on which there is something left to do drives its case. -/
theorem driven_of_event {o : OutboxEvent} (tracked : w.Tracked) (accounted : w.Accounted)
    (ho : o ∈ w.db.outbox) (leads : o.Leads c) (open_ : ¬ Spent w.db o) : Driven w c := by
  cases status : o.status with
  | pending => exact .pending o ho leads status
  | failed => exact .exhausted o ho leads status
  | published =>
    rcases accounted.published o ho status with ⟨job, queued, names⟩ | ⟨p, mem, on⟩
    · exact .queued o ho leads job queued names
    · obtain ⟨job, works, names⟩ := on
      obtain ⟨o', announces, knows⟩ := tracked.processes p mem job works
      obtain rfl : o = o' :=
        Table.eq_of_key ho announces.mem (Uuid.str_injective (names.symm.trans announces.names))
      cases ended : p.ended with
      | false => exact .running o ho leads p mem ⟨job, works, names⟩ ended
      | true =>
        cases p with
        | raised job' retried =>
          cases works
          exact .raised o ho leads job retried mem names
        | returned => exact absurd knows open_
        | webhook | answered => cases works
        | _ => cases ended

theorem World.Accounted.driven (accounted : w.Accounted) (sound : w.Sound) (tracked : w.Tracked)
    (life : w.db.Lifecycle) (hc : c ∈ w.db.cases) (open_ : c.status.isTerminal = false)
    (other : c.status ≠ .waiting) : Driven w c := by
  have lived := life.life c hc
  have resting : c.status = .eligible ∨ c.status = .actionScheduled := by
    have resting := lived.status
    revert resting open_ other
    cases c.status <;> decide
  have mine : ∀ {c' : RecoveryCase}, c' ∈ w.db.cases → c'.id.str = c.id.str →
      c' = c := fun hc' same =>
    Table.eq_of_key hc' hc (Uuid.str_injective same)
  rcases resting with eligible | scheduled
  · obtain ⟨o, ho, type, about⟩ := lived.eligible
    refine driven_of_event tracked accounted ho ⟨about, .inl ⟨type, eligible⟩⟩ fun spent => ?_
    obtain ⟨-, c₀, hc₀, named, own⟩ := (tracked.led.addressed o ho).eligible type
    obtain rfl := mine hc₀ (own.symm.trans about)
    obtain ⟨c₁, hc₁, named', left⟩ := spent.eligible type
    obtain rfl : c₁ = c₀ := Table.eq_of_key hc₁ hc₀ (Option.some.inj (named'.symm.trans named))
    exact left eligible
  · obtain ⟨a, ha, own⟩ := accounted.scheduled c hc scheduled
    have fits := lived.actions a ha own
    rw [scheduled] at fits
    obtain ⟨o, ho, type, about⟩ := lived.scheduled.2 ⟨a, ha, own, executable_of_scheduled fits⟩
    have leads : o.Leads c := ⟨about, .inr ⟨type, scheduled⟩⟩
    obtain ⟨a₀, ha₀, named, -, c₀, hc₀, own₀, aggregate, -⟩ :=
      (tracked.led.addressed o ho).scheduled type
    obtain rfl := mine hc₀ (aggregate.symm.trans about)
    obtain rfl : a₀ = a := sound.db.oneAction a₀ ha₀ a ha (own₀.symm.trans own.symm)
    have event : ∀ {o' : OutboxEvent}, o' ∈ w.db.outbox → o'.eventType = scheduledEvent →
        o'.actionId? = some a₀.id →
        o' = o := by
      intro o' ho' type' named'
      obtain ⟨a', ha', named'', -, c', hc', own', aggregate', -⟩ :=
        (tracked.led.addressed o' ho').scheduled type'
      obtain rfl : a' = a₀ := Table.eq_of_key ha' ha (Option.some.inj (named''.symm.trans named'))
      have same : c'.id = c₀.id := own'.trans own
      exact sound.db.oneScheduled o' ho' o ho type' type
        (aggregate'.trans ((congrArg Uuid.str same).trans about.symm))
    rcases status_of_scheduled fits with status | status | status
    · refine driven_of_event tracked accounted ho leads fun spent => ?_
      obtain ⟨a₁, ha₁, named', left⟩ := spent.scheduled type
      obtain rfl : a₁ = a₀ := Table.eq_of_key ha₁ ha (Option.some.inj (named'.symm.trans named))
      exact left status
    · rcases accounted.executing a₀ ha status with
        ⟨pid, p, claim, at_, carried, actionId⟩ | ⟨o', ho', type', named', rest⟩
      · obtain ⟨job, works, about'⟩ := p.carrier carried
        obtain ⟨o', announces, knows⟩ := tracked.processes p (List.mem_of_getElem? at_) job works
        obtain ⟨type', named'⟩ := about' w.db o' knows
        obtain rfl := event announces.mem type' (actionId ▸ named')
        refine .running o' ho leads p (List.mem_of_getElem? at_) ⟨job, works, announces.names⟩ ?_
        cases p <;> first | rfl | cases carried
      · obtain rfl := event ho' type' named'
        obtain ⟨job, retried, mem, names⟩ := rest
        exact .raised o' ho leads job retried mem names
    · exact .failed a₀ ha own status

/-- Where no process has crashed, a case that is neither terminal nor `WAITING` has an event to be
dispatched or given up by the dispatcher, a message of it at the broker, a task at work on it or one
that has raised, or its action has `FAILED`. -/
theorem work_accounted (run : (World.start now merchants policies).Reaches settings w)
    (alive : none ∉ w.processes) (hc : c ∈ w.db.cases) (open_ : c.status.isTerminal = false)
    (other : c.status ≠ .waiting) : Driven w c := by
  have start := World.Sound.start now merchants policies
  have tracked := World.tracked_start now merchants policies
  have accounted := run.accounted start tracked (World.exclusive_start now merchants policies) alive
    (World.accounted_start now merchants policies)
  exact accounted.driven (run.sound start) (run.tracked start tracked)
    (run.lifecycle start (World.lifecycle_start now merchants policies)) hc open_ other

/-- A claim that is carried is on an `EXECUTING` action, and no other process carries one
on an action of its case. -/
theorem exclusive_claims (run : (World.start now merchants policies).Reaches settings w)
    (at_ : w.processes[pid]? = some (some p)) (carries : p.claim? = some claim) :
    (∃ a ∈ w.db.actions, a.id = claim.actionId ∧ a.recoveryCaseId = claim.caseId ∧
      a.status = .executing) ∧
      ∀ pid' p' claim', w.processes[pid']? = some (some p') → p'.claim? = some claim' →
        claim'.caseId = claim.caseId → pid' = pid := by
  have sound := run.sound (World.Sound.start now merchants policies)
  have exclusive := run.exclusive (World.exclusive_start now merchants policies)
  obtain ⟨a, ha, id, executing⟩ := exclusive.executing pid _ ⟨p, claim, at_, carries, rfl⟩
  obtain ⟨b, hb, id', own⟩ := sound.claims p (List.mem_of_getElem? at_) claim carries
  obtain rfl : b = a := Table.eq_of_key hb ha (id'.trans id.symm)
  refine ⟨⟨b, ha, id, own, executing⟩, fun pid' p' claim' at_' carries' same => ?_⟩
  obtain ⟨b', hb', id'', own'⟩ := sound.claims p' (List.mem_of_getElem? at_') claim' carries'
  obtain rfl : b' = b := sound.db.oneAction b' hb' b ha (own'.trans (same.trans own.symm))
  exact exclusive.single _ _ _ ⟨p', claim', at_', carries', id''.symm.trans id⟩ ⟨p, claim,
    at_, carries, rfl⟩

/-- A finalization that is not rolled back takes effect, whatever has happened to
the case since the claim. -/
theorem finalization_applies {env : Env}
    (run : (World.start now merchants policies).Reaches settings w)
    (at_ : w.processes[pid]? = some (some p)) (carries : p.claim? = some claim)
    (move : w.next settings (.transact pid env) = some v) :
    ∃ verdict, p.verdict = some verdict ∧ (Finalized w.db v.db claim verdict ∨
      v.db = w.db ∧ ∃ job retried, v.processes[pid]? = some (some (.raised job retried))) := by
  have sound := run.sound (World.Sound.start now merchants policies)
  have exclusive := run.exclusive (World.exclusive_start now merchants policies)
  cases World.next_does move with
  | commit at_' code clock run =>
    obtain rfl := Option.some.inj (Option.some.inj (at_.symm.trans at_'))
    obtain ⟨verdict, ends, finalized⟩ := World.finalized_of_run sound exclusive at_ carries code run
    exact ⟨verdict, ends, .inl finalized⟩
  | abort at_' code =>
    obtain rfl := Option.some.inj (Option.some.inj (at_.symm.trans at_'))
    obtain ⟨job, works, -⟩ := p.carrier carries
    obtain ⟨retried, raised⟩ := World.abort_raised code works _
    have here : (w.processes.set pid (some (.raised job retried)))[pid]? =
        some (some (.raised job retried)) :=
      List.getElem?_set_self (List.getElem?_eq_some_iff.1 at_).1
    cases p with
    | success | failure => exact ⟨_, rfl, .inr ⟨rfl, job, retried, raised ▸ here⟩⟩
    | external => cases code
    | _ => cases carries

end

theorem work_accounted_sample :
    ∃ w c, @World.Reaches (.recorded [expiredInstrument]) {} sampleWorld w ∧
    c ∈ w.db.cases ∧ c.status = .actionScheduled ∧ Driven w c := by
  let _ : PyLib := .recorded [expiredInstrument]
  obtain ⟨w, -, -, -, -, -, run, -, -, -, -, -, waits, alive, -⟩ := linkRun
  obtain ⟨c, hc, status⟩ := List.any_eq_true.1 waits
  have status : c.status = .actionScheduled := of_decide_eq_true status
  exact ⟨w, c, .run .refl run, hc, status, work_accounted (.run .refl run)
    (fun crashed => absurd (List.all_eq_true.1 alive none crashed) nofun) hc (status ▸ rfl)
      (status ▸ nofun)⟩

theorem exclusive_claims_sample :
    ∃ w p claim, @World.Reaches (.recorded [expiredInstrument]) {} sampleWorld w ∧
    w.processes[2]? = some (some p) ∧ p.claim? = some claim ∧
      (∃ a ∈ w.db.actions, a.id = claim.actionId ∧ a.recoveryCaseId = claim.caseId ∧
        a.status = .executing) ∧
      ∀ pid' p' claim', w.processes[pid']? = some (some p') → p'.claim? = some claim' →
        claim'.caseId = claim.caseId → pid' = 2 := by
  let _ : PyLib := .recorded [expiredInstrument]
  obtain ⟨_, _, w, -, -, -, run, run₁, move, -, -, -, -, -, -, carries, -⟩ := linkRun
  obtain ⟨p, claim, at_, carried⟩ := carriesClaim_spec carries
  have reached := World.Reaches.step _ ((World.Reaches.run .refl run).run run₁) move
  exact ⟨w, p, claim, reached, at_, carried, exclusive_claims reached at_ carried⟩

theorem finalization_applies_sample : ∃ w v p claim,
    @World.Reaches (.recorded [expiredInstrument]) {} sampleWorld w ∧
      @World.next (.recorded [expiredInstrument]) {} w (.transact 2 (.numbered 6)) = some v ∧
      w.processes[2]? = some (some p) ∧ p.claim? = some claim ∧
      ∃ verdict, p.verdict = some verdict ∧ (Finalized w.db v.db claim verdict ∨
        v.db = w.db ∧ ∃ job retried, v.processes[2]? = some (some (.raised job retried))) := by
  let _ : PyLib := .recorded [expiredInstrument]
  obtain ⟨_, _, _, w, v, -, run, run₁, move, run₂, move', -, -, -, -, -, carries, -⟩ := linkRun
  obtain ⟨p, claim, at_, carried⟩ := carriesClaim_spec carries
  have reached := (World.Reaches.step _ ((World.Reaches.run .refl run).run run₁) move).run run₂
  exact ⟨w, v, p, claim, reached, move', at_, carried,
    finalization_applies reached at_ carried move'⟩

end RecoverAI
