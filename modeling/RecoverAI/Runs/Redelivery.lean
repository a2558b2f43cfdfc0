import RecoverAI.Runs.Messages

/-!
# Redelivery

In every run each message is about an event that was due, and each task knows how far its event has
come. So a message that is delivered once more, however often and however late, finds nothing to do,
and no action is carried out before its time.
-/
namespace RecoverAI

open Store

namespace World

variable [PyLib] {settings : Settings} {u v w : World} {turn : Turn} {job : Job} {o : OutboxEvent}
  {p q : Process}

/-- The message is about an event that was due. -/
structure Announces (w : World) (job : Job) (o : OutboxEvent) : Prop where
  mem : o ∈ w.db.outbox
  names : job.outboxEventId = o.id.str
  due : ∀ at_, o.deliverAt = some at_ → at_ ≤ w.now

/-- What holds of a process and its message. -/
def Follows (w : World) (p : Process) : Prop :=
  ∀ job, p.job? = some job → ∃ o, w.Announces job o ∧ p.Knows w.db o

structure Tracked (w : World) : Prop where
  led : w.db.Led
  queue : ∀ job ∈ w.queue, ∃ o, w.Announces job o
  processes : ∀ p, some p ∈ w.processes → w.Follows p

theorem tracked_start (now : Time) (merchants : Table Merchant) (policies : Table MerchantPolicy) :
    (start now merchants policies).Tracked where
  led := ⟨fun _ h => absurd h List.not_mem_nil, fun _ h => absurd h List.not_mem_nil⟩
  queue _ h := absurd h List.not_mem_nil
  processes _ h := absurd h List.not_mem_nil

/-! ## Steps -/

omit [PyLib] in
/-- Rows of the outbox after a dispatcher call are the old ones, offered or not. -/
theorem kept_of_dispatch {ids : List Uuid} {answers : List Publish} :
    ∀ e' ∈ w.db.outbox.putAll ((w.offers ids answers).map (Offer.row settings)),
      ∃ e ∈ w.db.outbox, e.Same e' ∧ e'.deliverAt = e.deliverAt := by
  intro e' he'
  rcases mem_outbox_of_dispatch he' with old | ⟨o, -, mem, rfl⟩
  · exact ⟨e', old, .refl e', rfl⟩
  · exact ⟨o.event, mem, o.same settings, by simp [Offer.row]⟩

theorem Does.advances (does : Does settings w turn v) (sound : w.Sound) : w.db.Advances v.db := by
  have grows := does.grows
  cases does with
  | commit at_ code clock run => exact advances_of_run code run sound.db
  | @limits policy old known own =>
    refine { Db.Advances.refl w.db with policies := fun p hp => ?_ }
    by_cases same : p.id = policy.id
    · obtain ⟨mem, id⟩ := Table.get_eq_some.1 known
      obtain rfl : p = old := Table.eq_of_key hp mem (same.trans id.symm)
      exact ⟨policy, Table.mem_put.2 (.inl rfl), own⟩
    · exact ⟨p, Table.mem_put.2 (.inr ⟨hp, same⟩), rfl⟩
  | @dispatched batchSize ids answers picks offered =>
    refine { Db.Advances.refl w.db with toGrows := grows, kept := fun o ho => ?_ }
    obtain ⟨o', ho', same⟩ := grows.outbox o ho
    obtain ⟨e, he, same', at_⟩ := kept_of_dispatch o' ho'
    obtain rfl : e = o := Table.eq_of_key he ho (same'.id.symm.trans same.id)
    exact ⟨o', ho', same, at_⟩
  | _ => exact .refl w.db

theorem Does.later (does : Does settings w turn v) : w.now ≤ v.now := by
  cases does with
  | tick forward => exact forward
  | commit _ _ clock | abort _ _ clock => exact clock.le
  | _ => exact le_rfl

theorem Does.led (does : Does settings w turn v) (sound : w.Sound) (led : w.db.Led) : v.db.Led := by
  have advances := does.advances sound
  cases does with
  | commit at_ code clock run => exact led_of_run code clock.began run sound.db led
  | limits =>
    exact led.step sound.db advances (fun o ho => .inl ⟨o, ho, .refl o, rfl⟩) fun a ha =>
      .inl ⟨a, ha, .refl a⟩
  | dispatched =>
    exact led.step sound.db advances (fun o ho => .inl (kept_of_dispatch o ho)) fun a ha =>
      .inl ⟨a, ha, .refl a⟩
  | _ => exact led

omit [PyLib] in
theorem Announces.advances (h : w.Announces job o) (advances : w.db.Advances v.db)
    (later : w.now ≤ v.now) : ∃ o', v.Announces job o' ∧ o.Same o' := by
  obtain ⟨o', ho', same, at_⟩ := advances.kept o h.mem
  refine ⟨o', ⟨ho', by rw [h.names, same.id], fun t due => ?_⟩, same⟩
  exact (h.due t (at_ ▸ due)).trans later

theorem Follows.advances (h : w.Follows p) (advances : w.db.Advances v.db) (later : w.now ≤ v.now) :
    v.Follows p := by
  intro job works
  obtain ⟨o, announces, knows⟩ := h job works
  obtain ⟨o', announces', same⟩ := announces.advances advances later
  exact ⟨o', announces', knows.advances advances same⟩

/-- A task keeps its message to its end. -/
theorem Follows.abort {body : Env → Tx Process} {abort : Err → Process} (h : w.Follows p)
    (code : p.act settings = .txn body abort) (e : Err) : w.Follows (abort e) := by
  intro job works
  obtain ⟨same, knows⟩ := job_abort code e
  obtain ⟨o, announces, -⟩ := h job (same ▸ works)
  exact ⟨o, announces, knows _ _⟩

theorem follows_of_run {body : Env → Tx Process} {abort : Err → Process} {env : Env}
    (h : w.Follows p) (code : p.act settings = .txn body abort)
    (run : (body env).run w.db = .ok (q, v.db)) (sound : w.db.Sound) (led : w.db.Led)
    (later : w.now ≤ v.now) : v.Follows q := by
  intro job works
  cases has : p.job? with
  | none =>
    -- Only a request has no message, and it ends with an answer.
    cases p <;> cases has
    case none.webhook.refl =>
      cases code
      obtain ⟨_, _, -, done⟩ := run_bind_eq_ok.1 run
      cases done
      cases works
    case none.answered.refl => cases code
  | some job' =>
    obtain ⟨o, announces, knows⟩ := h job' has
    obtain ⟨same, knows'⟩ := knows_of_run code run sound led has announces.mem announces.names knows
    obtain rfl : job' = job := Option.some.inj (same.symm.trans works)
    obtain ⟨o', announces', sameEvent⟩ := announces.advances (advances_of_run code run sound) later
    exact ⟨o', announces', knows' o' announces'.mem sameEvent⟩

/-- How the process with a number came to its control state. -/
inductive Slot (settings : Settings) (w v : World) (pid : Nat) : Process → Prop
  | kept {p : Process} (at_ : w.processes[pid]? = some (some p)) : Slot settings w v pid p
  | requested (r : Request) (free : w.processes[pid]? = none) : Slot settings w v pid (.webhook r)
  | delivered {job : Job} (queued : job ∈ w.queue) (free : w.processes[pid]? = none) :
      Slot settings w v pid (.task job)
  | committed {env : Env} {p q : Process} {body : Env → Tx Process} {abort : Err → Process}
      (at_ : w.processes[pid]? = some (some p)) (code : p.act settings = .txn body abort)
      (clock : env.draws.After w.now) (run : (body env).run w.db = .ok (q, v.db)) :
      Slot settings w v pid q
  | aborted {p : Process} {body : Env → Tx Process} {abort : Err → Process} (e : Err)
      (at_ : w.processes[pid]? = some (some p)) (code : p.act settings = .txn body abort) :
      Slot settings w v pid (abort e)
  | called {job : Job} {claim : Claim} (reply : ExternalReply)
      (at_ : w.processes[pid]? = some (some (.external job claim))) :
      Slot settings w v pid (afterExternal settings job claim reply)
  | retried {job : Job} (at_ : w.processes[pid]? = some (some (.raised job true))) :
      Slot settings w v pid (.raised job false)

theorem Does.slot (does : Does settings w turn v) {pid : Nat}
    (at_ : v.processes[pid]? = some (some p)) : Slot settings w v pid p := by
  have appended : ∀ {new : Process}, (w.processes ++ [some new])[pid]? = some (some p) →
      w.processes[pid]? = some (some p) ∨ p = new ∧ w.processes[pid]? = none := by
    intro new h
    rw [List.getElem?_append] at h
    split at h
    next => exact .inl h
    next beyond =>
      have mem := List.mem_singleton.1 (List.mem_of_getElem? h)
      exact .inr ⟨Option.some.inj mem, List.getElem?_eq_none (not_lt.1 beyond)⟩
  have written : ∀ {pid' : Nat} {new : Option Process}, (w.processes.set pid' new)[pid]? =
      some (some p) →
      w.processes[pid]? = some (some p) ∨ pid' = pid ∧ new = some p := by
    intro pid' new h
    rw [List.getElem?_set] at h
    split at h
    next same =>
      split at h
      next => exact .inr ⟨same, Option.some.inj h⟩
      next => cases h
    next => exact .inl h
  cases does with
  | tick | limits | dispatched | undispatched => exact .kept at_
  | request r =>
    rcases appended at_ with old | ⟨rfl, free⟩
    · exact .kept old
    · exact .requested r free
  | deliver queued =>
    rcases appended at_ with old | ⟨rfl, free⟩
    · exact .kept old
    · exact .delivered (List.mem_of_getElem? queued) free
  | commit from_ code clock run =>
    rcases written at_ with old | ⟨rfl, new⟩
    · exact .kept old
    · cases new
      exact .committed from_ code clock run
  | abort from_ code | fault from_ code =>
    rcases written at_ with old | ⟨rfl, new⟩
    · exact .kept old
    · cases new
      exact .aborted _ from_ code
  | call from_ =>
    rcases written at_ with old | ⟨rfl, new⟩
    · exact .kept old
    · cases new
      exact .called _ from_
  | retry from_ =>
    rcases written at_ with old | ⟨rfl, new⟩
    · exact .kept old
    · cases new
      exact .retried from_
  | crash =>
    rcases written at_ with old | ⟨rfl, new⟩
    · exact .kept old
    · cases new

omit [PyLib] in
/-- What a dispatcher call publishes was due. -/
theorem announces_of_offer {ids : List Uuid} {answers : List Publish} {limit : Int}
    (picks : Picks w.db.outbox w.now [] limit (eventsOf w.db.outbox ids))
    (published : job ∈ (w.offers ids answers).filterMap Offer.message) :
    ∃ o, w.Announces job o := by
  obtain ⟨offer, offered, message⟩ := List.mem_filterMap.1 published
  obtain ⟨selected, -⟩ := mem_offers offered
  have due := (OutboxEvent.isDue_iff.1 (picks.free _ selected).2.1).2
  unfold Offer.message at message
  split at message
  next =>
    obtain rfl := Option.some.inj message
    exact ⟨offer.event, mem_of_mem_eventsOf selected, rfl, due⟩
  next => cases message

theorem Does.queue_tracked (does : Does settings w turn v) (sound : w.Sound) (tracked : w.Tracked) :
    ∀ job ∈ v.queue, ∃ o, v.Announces job o := by
  have advances := does.advances sound
  have later := does.later
  have old : ∀ job ∈ w.queue, ∃ o, v.Announces job o := fun job queued => by
    obtain ⟨o, announces⟩ := tracked.queue job queued
    obtain ⟨o', announces', -⟩ := announces.advances advances later
    exact ⟨o', announces'⟩
  cases does with
  | dispatched picks | undispatched picks =>
    intro job queued
    rcases List.mem_append.1 queued with queued | sent
    · exact old job queued
    · obtain ⟨o, announces⟩ := announces_of_offer picks sent
      obtain ⟨o', announces', -⟩ := announces.advances advances later
      exact ⟨o', announces'⟩
  | @deliver n again =>
    intro job queued
    refine old job ?_
    change job ∈ if again then w.queue else w.queue.eraseIdx n at queued
    split at queued
    next => exact queued
    next => exact List.mem_of_mem_eraseIdx queued
  | retry at_ =>
    intro job queued
    rcases List.mem_append.1 queued with queued | sent
    · exact old job queued
    · obtain rfl := List.mem_singleton.1 sent
      obtain ⟨o, announces, -⟩ := tracked.processes _ (List.mem_of_getElem? at_) _ rfl
      exact ⟨o, announces.mem, announces.names, announces.due⟩
  | _ => exact old

theorem Does.processes_tracked (does : Does settings w turn v) (sound : w.Sound)
    (tracked : w.Tracked) : ∀ p, some p ∈ v.processes → v.Follows p := by
  have advances := does.advances sound
  have later := does.later
  have old : ∀ p, some p ∈ w.processes → v.Follows p := fun p hp =>
    (tracked.processes p hp).advances advances later
  intro p hp
  obtain ⟨pid, slot⟩ := List.mem_iff_getElem?.1 hp
  cases does.slot slot with
  | kept at_ => exact old p (List.mem_of_getElem? at_)
  | requested => exact fun job works => nomatch works
  | delivered queued =>
    intro job works
    cases works
    obtain ⟨o, announces⟩ := tracked.queue _ queued
    obtain ⟨o', announces', -⟩ := announces.advances advances later
    exact ⟨o', announces', trivial⟩
  | committed at_ code clock run =>
    exact follows_of_run (tracked.processes _ (List.mem_of_getElem? at_)) code run sound.db
      tracked.led later
  | aborted e at_ code => exact (old _ (List.mem_of_getElem? at_)).abort code e
  | @called job claim reply at_ =>
    have before := old _ (List.mem_of_getElem? at_)
    intro job' works
    have same : job' = job := by
      unfold afterExternal at works
      split at works <;> exact (Option.some.inj works).symm
    obtain ⟨o, announces, knows⟩ := before job rfl
    refine ⟨o, same ▸ announces, ?_⟩
    unfold afterExternal
    split <;> exact knows
  | @retried job at_ =>
    have before := old _ (List.mem_of_getElem? at_)
    intro job' works
    obtain ⟨o, announces, -⟩ := before job rfl
    cases works
    exact ⟨o, announces, trivial⟩

theorem Does.tracked (does : Does settings w turn v) (sound : w.Sound) (tracked : w.Tracked) :
    v.Tracked where
  led := does.led sound tracked.led
  queue := does.queue_tracked sound tracked
  processes := does.processes_tracked sound tracked

theorem Reaches.tracked (h : u.Reaches settings w) (sound : u.Sound) (tracked : u.Tracked) :
    w.Tracked := by
  induction h with
  | refl => exact tracked
  | step turn before move ih => exact (next_does move).tracked (before.sound sound) ih

theorem Reaches.advances (h : u.Reaches settings w) (sound : u.Sound) : u.db.Advances w.db := by
  induction h with
  | refl => exact .refl _
  | step turn before move ih => exact ih.trans ((next_does move).advances (before.sound sound))

/-! ## Tasks of an event that is through -/

/-- The transaction of a task whose event is spent leaves everything as it is. -/
theorem idle_of_run {d d' : Db} {body : Env → Tx Process} {abort : Err → Process} {env : Env}
    (code : p.act settings = .txn body abort) (run : (body env).run d = .ok (q, d'))
    (sound : d.Sound) (led : d.Led) (works : p.job? = some job) (ho : o ∈ d.outbox)
    (names : job.outboxEventId = o.id.str) (knows : p.Knows d o) (spent : Spent d o)
    (unclaimed : p.claim? = none) : d' = d ∧ q.claim? = none := by
  have parsed : Uuid.parse job.outboxEventId = some o.id := names ▸ Uuid.parse_str o.id
  have found : d.outbox.get o.id = some o := Table.get_of_mem ho
  cases p with
  | webhook | answered | returned | raised => cases code <;> cases works
  | external | success | failure => cases unclaimed
  | task =>
    cases works
    cases code
    simp only [processOutboxEvent, parsed] at run
    rw [run_bind_ok (run_selectOutbox _),
      show d.outbox.find (·.id = o.id) = some o from found] at run
    simp only at run
    split at run
    next => cases run; exact ⟨rfl, rfl⟩
    next =>
      split at run <;> cases run <;> exact ⟨rfl, rfl⟩
  | eligible =>
    cases works
    cases code
    obtain ⟨result, d₁, decided, done⟩ := run_bind_eq_ok.1 run
    cases done
    cases processEligibleEvent_ok decided with
    | idle => exact ⟨rfl, rfl⟩
    | @acted case _ _ source calls =>
      obtain ⟨id, outbox, parsed', found', named, here, eligible⟩ := calls
      obtain rfl := Option.some.inj (parsed.symm.trans parsed')
      obtain rfl := Option.some.inj (found.symm.trans found')
      obtain ⟨c, hc, named', left⟩ := spent.eligible knows
      have same : case.id = c.id := Option.some.inj (named.symm.trans named')
      obtain ⟨mem, -⟩ := Table.get_eq_some.1 here
      exact absurd eligible (Table.eq_of_key mem hc same ▸ left)
  | claim _ payload =>
    cases works
    cases code
    obtain ⟨type, rfl⟩ := knows
    obtain ⟨a, ha, named, left⟩ := spent.scheduled type
    have named : (Json.item o.payload "recovery_action_id").uuid = some a.id := named
    simp only [claimFromPayload, named] at run
    obtain ⟨result, d₁, claimed, done⟩ := run_bind_eq_ok.1 run
    have here : ∀ b, d.actions.get a.id = some b → b = a := fun b hb =>
      Option.some.inj (hb.symm.trans (Table.get_of_mem ha))
    obtain ⟨rfl, fields, rfl⟩ :=
      claimAction_spent (fun b hb => here b hb ▸ left) (fun b c hb hc => by
      obtain rfl := here b hb
      obtain ⟨p, hp, own⟩ := (led.decreed b ha).policy
      obtain ⟨c', hc', id, merchant⟩ := sound.action b ha
      obtain ⟨mem, id'⟩ := Table.get_eq_some.1 hc
      obtain rfl : c' = c := Table.eq_of_key hc' mem (id.trans id'.symm)
      exact ⟨p, hp, own.trans merchant.symm⟩) claimed
    cases done
    exact ⟨rfl, rfl⟩

/-- The event is there, and nothing is left to do about it. -/
def Settled (w : World) (event : String) : Prop :=
  ∃ o ∈ w.db.outbox, event = o.id.str ∧ Spent w.db o

theorem Settled.advances {event : String} (h : w.Settled event) (advances : w.db.Advances v.db) :
    v.Settled event := by
  obtain ⟨o, ho, names, spent⟩ := h
  obtain ⟨o', ho', same, -⟩ := advances.kept o ho
  exact ⟨o', ho', by rw [names, same.id], spent.advances advances same⟩

end World

/-- The process works on the event. -/
def Process.On (event : String) (p : Process) : Prop :=
  ∃ job, p.job? = some job ∧ job.outboxEventId = event

/-- The transaction that the event asks for is behind the process. -/
def Process.through : Process → Bool
  | .external .. | .success .. | .failure .. | .returned .. => true
  | _ => false

theorem Process.unclaimed_of_ended {p : Process} (h : p.ended) : p.claim? = none := by
  cases p <;> first | rfl | cases h

namespace World

variable [PyLib] {settings : Settings} {u v w : World} {p q : Process} {event : String} {pid : Nat}

theorem Follows.settled (h : w.Follows p) (on : p.On event) (through : p.through) :
    w.Settled event := by
  obtain ⟨job, works, rfl⟩ := on
  obtain ⟨o, announces, knows⟩ := h job works
  refine ⟨o, announces.mem, announces.names, ?_⟩
  cases p with
  | external | success | failure => exact knows.2.2
  | returned => exact knows
  | _ => cases through

/-- A transaction for a settled event changes nothing and claims nothing. -/
theorem Settled.idle {body : Env → Tx Process} {abort : Err → Process} {env : Env}
    (settled : w.Settled event) (tracked : w.Tracked) (sound : w.Sound)
    (at_ : w.processes[pid]? = some (some p)) (on : p.On event) (unclaimed : p.claim? = none)
    (code : p.act settings = .txn body abort) {d : Db} (run : (body env).run w.db = .ok (q, d)) :
    d = w.db ∧ q.claim? = none := by
  obtain ⟨o, ho, names, spent⟩ := settled
  obtain ⟨job, works, named⟩ := on
  obtain ⟨o', announces, knows⟩ := tracked.processes p (List.mem_of_getElem? at_) job works
  have same : o.id = o'.id :=
    Uuid.str_injective (names.symm.trans (named.symm.trans announces.names))
  obtain rfl : o' = o := Table.eq_of_key announces.mem ho same.symm
  exact idle_of_run code run sound.db tracked.led works ho announces.names knows spent unclaimed

/-- A task passes its event on. -/
theorem on_of_run {body : Env → Tx Process} {abort : Err → Process} {env : Env}
    (follows : w.Follows p) (sound : w.Sound) (led : w.db.Led)
    (code : p.act settings = .txn body abort) {d : Db} (run : (body env).run w.db = .ok (q, d))
    (on : q.On event) : p.On event := by
  obtain ⟨job, works, named⟩ := on
  cases has : p.job? with
  | none =>
    cases p <;> cases has
    case none.webhook.refl =>
      cases code
      obtain ⟨_, _, -, done⟩ := run_bind_eq_ok.1 run
      cases done
      cases works
    case none.answered.refl => cases code
  | some job' =>
    obtain ⟨o, announces, knows⟩ := follows job' has
    obtain ⟨same, -⟩ := knows_of_run code run sound.db led has announces.mem announces.names knows
    exact ⟨job', has, Option.some.inj (same.symm.trans works) ▸ named⟩

/-- The tasks of a settled event that carry no claim never get one. -/
theorem Reaches.unclaimed (later : w.Reaches settings u) (sound : w.Sound) (tracked : w.Tracked)
    (settled : w.Settled event)
    (before : ∀ p, w.processes[pid]? = some (some p) → p.On event → p.claim? = none) :
    ∀ p, u.processes[pid]? = some (some p) → p.On event → p.claim? = none := by
  induction later with
  | refl => exact before
  | @step u' v turn reached move ih =>
    have sound' := reached.sound sound
    have tracked' := reached.tracked sound tracked
    intro p slot on
    cases (next_does move).slot slot with
    | kept at_ => exact ih p at_ on
    | requested | delivered | retried => rfl
    | committed at_ code clock run =>
      have on' := on_of_run (tracked'.processes _ (List.mem_of_getElem? at_)) sound'
        tracked'.led code run on
      exact ((settled.advances (reached.advances sound)).idle tracked' sound' at_ on'
        (ih _ at_ on') code run).2
    | aborted e at_ code => exact Process.unclaimed_of_ended (ended_abort code e)
    | @called job claim reply at_ =>
      obtain ⟨job', works, named⟩ := on
      have same : job' = job := by
        unfold afterExternal at works
        split at works <;> exact (Option.some.inj works).symm
      exact absurd (ih _ at_ ⟨job, rfl, same ▸ named⟩) nofun

end World

section

variable [PyLib] {settings : Settings} {now : Time} {merchants : Table Merchant}
  {policies : Table MerchantPolicy} {u v w : World} {turn : Turn} {event : String} {pid : Nat}
  {p : Process}

/-- Once a task of an event is through with it, every other task of the event, whenever it starts
and whatever the limits are by then, carries no claim to the provider and commits no change. -/
theorem redelivery_idle (run : (World.start now merchants policies).Reaches settings w)
    (finished : ∃ p, some p ∈ w.processes ∧ p.through ∧ p.On event)
    (again : ∀ p, w.processes[pid]? = some (some p) → p.On event → p.claim? = none)
    (later : w.Reaches settings u) (at_ : u.processes[pid]? = some (some p)) (on : p.On event) :
    p.claim? = none ∧ ∀ env v, u.next settings (.transact pid env) = some v → v.db = u.db := by
  have start := World.Sound.start now merchants policies
  have sound := run.sound start
  have tracked := run.tracked start (World.tracked_start now merchants policies)
  obtain ⟨first, mem, through, on'⟩ := finished
  have settled := (tracked.processes first mem).settled on' through
  have unclaimed := later.unclaimed sound tracked settled again p at_ on
  refine ⟨unclaimed, fun env v move => ?_⟩
  cases World.next_does move with
  | commit at_' code clock run =>
    obtain rfl := Option.some.inj (Option.some.inj (at_.symm.trans at_'))
    exact ((settled.advances (later.advances sound)).idle (later.tracked sound tracked)
      (later.sound sound) at_ on
      unclaimed code run).1
  | abort => rfl

/-- An action becomes `EXECUTING` no sooner than its decision said. That is later than the time
the worker read when it decided, by the engine's delay for a `WAIT` of the engine's and by an
hour for any other `WAIT`. -/
theorem executes_when_due (run : (World.start now merchants policies).Reaches settings w)
    (move : w.next settings turn = some v) {a a' : RecoveryAction} (ha : a ∈ w.db.actions)
    (before : a.status ≠ .executing) (ha' : a' ∈ v.db.actions) (same : a'.id = a.id)
    (after : a'.status = .executing) :
    ∃ c ∈ w.db.cases, c.id = a.recoveryCaseId ∧ ∃ x ∈ w.db.audits, x.eventType = decisionEvent ∧
      x.entityId = c.id.str ∧ ∃ engine : RecoveryActionType, Json.item x.payload "engine_action" =
        .str engine.value ∧
        ∃ decided, x.createdAt ≤ decided ∧
          c.nextActionAt = some (decided + a.actionType.delay engine) ∧
          decided + a.actionType.delay engine ≤ w.now := by
  have start := World.Sound.start now merchants policies
  have tracked := run.tracked start (World.tracked_start now merchants policies)
  have unmoved : v.db.actions = w.db.actions → False := fun eq =>
    before (Table.eq_of_key (eq ▸ ha') ha same ▸ after)
  cases World.next_does move with
  | commit at_ code clock run =>
    rcases World.acts_of_run code run a' ha' with ⟨b, hb, sameAction, acts⟩ | ⟨-, -, absent⟩
    · obtain rfl : b = a := Table.eq_of_key hb ha (sameAction.id.symm.trans same)
      cases acts with
      | kept eq => exact absurd (eq ▸ after) before
      | cancelled _ status => exact absurd (after.symm.trans status) nofun
      | finalized _ _ executing => exact absurd executing before
      | @claimed job payload is named approved =>
        subst is
        obtain ⟨o, announces, type, rfl⟩ := tracked.processes _ (List.mem_of_getElem? at_) job rfl
        obtain ⟨a₀, ha₀, named₀, executable, c, hc, own, -, due⟩ :=
          (tracked.led.addressed o announces.mem).scheduled type
        obtain rfl : a₀ = b := Table.eq_of_key ha₀ ha (Option.some.inj (named₀.symm.trans named))
        obtain ⟨c', hc', own', x, hx, decision, entity, engine, asked, at_, since, time⟩ :=
          (tracked.led.decreed a₀ ha).timed executable
        obtain rfl : c' = c := Table.eq_of_key hc' hc (own'.trans own.symm)
        exact ⟨c', hc, own, x, hx, decision, entity, engine, asked, at_, since, time,
          announces.due _ (due ▸ time)⟩
    · exact absurd same.symm (Table.get_eq_none.1 absent a ha)
  | _ => exact (unmoved rfl).elim

end

/-- The event a process works on, and whether it is through with it. -/
def worksOn (pid : Nat) (w : World) : Option (String × Bool) :=
  match w.processes[pid]? with
  | some (some p) => p.job?.map fun job => (job.outboxEventId, p.through)
  | _ => none

theorem worksOn_spec {pid : Nat} {w : World} {event : String} {through : Bool}
    (h : worksOn pid w = some (event, through)) :
    ∃ p, w.processes[pid]? = some (some p) ∧ p.On event ∧ p.through = through := by
  unfold worksOn at h
  split at h
  next p at_ =>
    obtain ⟨job, works, eq⟩ := Option.map_eq_some_iff.1 h
    obtain ⟨named, eq⟩ := Prod.mk.inj eq
    exact ⟨p, at_, ⟨job, works, named⟩, eq⟩
  next => cases h

/-- The process carries a claim. -/
def carriesClaim (pid : Nat) (w : World) : Bool :=
  match w.processes[pid]? with
  | some (some p) => p.claim?.isSome
  | _ => false

theorem carriesClaim_spec {pid : Nat} {w : World} (h : carriesClaim pid w) :
    ∃ p claim, w.processes[pid]? = some (some p) ∧ p.claim? = some claim := by
  unfold carriesClaim at h
  split at h
  next p at_ =>
    obtain ⟨claim, carried⟩ := Option.isSome_iff_exists.1 h
    exact ⟨p, claim, at_, carried⟩
  next => cases h

/-- A run up to the issued link: scheduled, due, claimed, called for and finalized; then
its message comes again. -/
theorem linkRun : let _ : PyLib := .recorded [expiredInstrument]
    ∃ scheduled due claimed called linked again : World, sampleWorld.run {} decideTurns =
      some scheduled ∧
      scheduled.run {} (linkTurns.take 5) = some due ∧
        due.next {} (.transact 2 (.numbered 5)) = some claimed ∧
      claimed.run {} [.call 2 sampleReply, .tick 6] = some called ∧
      called.next {} (.transact 2 (.numbered 6)) = some linked ∧
      linked.run {} [.deliver 0 false, .transact 3 (.numbered 6)] = some again ∧
      (scheduled.db.cases.rows.any fun c => c.status = .actionScheduled) ∧
        scheduled.processes.all Option.isSome ∧
      (due.db.actions.rows.any fun a => a.status ≠ .executing &&
        claimed.db.actions.rows.any fun a' =>
        a'.id = a.id && a'.status = .executing) ∧
      carriesClaim 2 claimed ∧ carriesClaim 2 called ∧
      worksOn 2 linked = some ((Uuid.ofNat 34).str, true) ∧ linked.processes.length = 3 ∧
      worksOn 3 again = some ((Uuid.ofNat 34).str, false) := by
  intro _
  have runs : ((sampleWorld.run {} decideTurns).bind fun scheduled =>
      (scheduled.run {} (linkTurns.take 5)).bind fun due =>
      (due.next {} (.transact 2 (.numbered 5))).bind fun claimed =>
        (claimed.run {} [.call 2 sampleReply, .tick 6]).bind fun called =>
          (called.next {} (.transact 2 (.numbered 6))).bind fun linked =>
            (linked.run {} [.deliver 0 false, .transact 3 (.numbered 6)]).map fun again =>
              (scheduled.db.cases.rows.any fun c => c.status = .actionScheduled) &&
                scheduled.processes.all Option.isSome &&
              (due.db.actions.rows.any fun a => a.status ≠ .executing &&
                claimed.db.actions.rows.any fun a' =>
                a'.id = a.id && a'.status = .executing) &&
              carriesClaim 2 claimed && carriesClaim 2 called &&
              decide (worksOn 2 linked = some ((Uuid.ofNat 34).str, true)) &&
                decide (linked.processes.length = 3) &&
              decide (worksOn 3 again = some ((Uuid.ofNat 34).str, false))) = some true := by
    decide +kernel
  obtain ⟨scheduled, run, runs⟩ := Option.bind_eq_some_iff.1 runs
  obtain ⟨due, run₁, runs⟩ := Option.bind_eq_some_iff.1 runs
  obtain ⟨claimed, move, runs⟩ := Option.bind_eq_some_iff.1 runs
  obtain ⟨called, run₂, runs⟩ := Option.bind_eq_some_iff.1 runs
  obtain ⟨linked, move', runs⟩ := Option.bind_eq_some_iff.1 runs
  obtain ⟨again, run₃, facts⟩ := Option.map_eq_some_iff.1 runs
  simp only [Bool.and_eq_true, decide_eq_true_eq, and_assoc] at facts
  exact ⟨scheduled, due, claimed, called, linked, again, run, run₁, move, run₂, move', run₃, facts⟩

theorem redelivery_idle_sample : ∃ linked again p,
    @World.Reaches (.recorded [expiredInstrument]) {} sampleWorld linked ∧
      @World.Reaches (.recorded [expiredInstrument]) {} linked again ∧
        again.processes[3]? = some (some p) ∧
      p.claim? = none ∧ ∀ env v,
        @World.next (.recorded [expiredInstrument]) {} again (.transact 3 env) = some v →
        v.db = again.db := by
  let _ : PyLib := .recorded [expiredInstrument]
  obtain ⟨scheduled, due, claimed, called, linked, again, run, run₁, move, run₂, move', run₃, -, -,
    -, -, -, done, fresh, starts⟩ := linkRun
  have reached := World.Reaches.step _
    ((World.Reaches.step _ ((World.Reaches.run .refl run).run run₁) move).run run₂) move'
  obtain ⟨first, at_, on, through⟩ := worksOn_spec done
  obtain ⟨p, here, on', -⟩ := worksOn_spec starts
  have idle := redelivery_idle reached ⟨first, List.mem_of_getElem? at_, through, on⟩
    (fun q slot _ => absurd (List.getElem?_eq_some_iff.1 slot).1 (by omega))
      (.run .refl run₃) here on'
  exact ⟨linked, again, p, reached, .run .refl run₃, here, idle⟩

theorem executes_when_due_sample : ∃ w v a a',
    @World.Reaches (.recorded [expiredInstrument]) {} sampleWorld w ∧
      @World.next (.recorded [expiredInstrument]) {} w (.transact 2 (.numbered 5)) = some v ∧
      a ∈ w.db.actions ∧ a' ∈ v.db.actions ∧ a'.status = .executing ∧
      ∃ c ∈ w.db.cases, c.id = a.recoveryCaseId ∧ ∃ x ∈ w.db.audits, x.eventType = decisionEvent ∧
        x.entityId = c.id.str ∧ ∃ engine : RecoveryActionType, Json.item x.payload "engine_action" =
          .str engine.value ∧
          ∃ decided, x.createdAt ≤ decided ∧
            c.nextActionAt = some (decided + a.actionType.delay engine) ∧
            decided + a.actionType.delay engine ≤ w.now := by
  let _ : PyLib := .recorded [expiredInstrument]
  obtain ⟨scheduled, due, claimed, -, -, -, run, run₁, move, -, -, -, -, -, facts, -⟩ := linkRun
  have reached := (World.Reaches.run .refl run).run run₁
  simp only [List.any_eq_true, Bool.and_eq_true, decide_eq_true_eq] at facts
  obtain ⟨a, ha, before, a', ha', same, after⟩ := facts
  exact ⟨due, claimed, a, a', reached, move, ha, ha', after,
    executes_when_due reached move ha before ha' same after⟩

end RecoverAI
