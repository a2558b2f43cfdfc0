import RecoverAI.Invariants.Sound
import RecoverAI.Outbox.Dispatcher
import RecoverAI.Serial.Statements

/-!
# The service as a whole

Requests, dispatcher, broker, workers and clock, with transactions as atomic steps. A message the
broker has delivered may be delivered once more, a process may crash between its transactions, and
the limits of a policy may change at any time.
-/
namespace RecoverAI

open Store

structure World where
  now : Time
  db : Db
  /-- The messages at the broker. -/
  queue : List Job
  /-- The requests and tasks by number; a crashed one is `none`. -/
  processes : List (Option Process)

/-- `max_retries` of `process_outbox_event`. -/
def maxRetries : Nat := 5

inductive Turn where
  | tick (later : Time)
  | limits (policy : MerchantPolicy)
  | request (r : Request)
  | dispatch (batchSize : Option Int) (ids : List Uuid) (answers : List Publish) (committed : Bool)
  | deliver (n : Nat) (again : Bool)
  | transact (pid : Nat) (env : Env)
  | fault (pid : Nat)
  | call (pid : Nat) (reply : ExternalReply)
  | retry (pid : Nat)
  | crash (pid : Nat)

/-- The message that an accepted offer leaves at the broker. -/
def Offer.message (o : Offer) : Option Job :=
  if o.answer = .accepted then some ⟨o.event.id.str, 0⟩ else none

theorem Offer.same (settings : Settings) (o : Offer) : o.event.Same (o.row settings) := by
  unfold Offer.row OutboxEvent.offered
  cases o.answer <;> exact ⟨rfl, rfl, rfl, rfl, rfl, rfl⟩

namespace World

def start (now : Time) (merchants : Table Merchant) (policies : Table MerchantPolicy) : World :=
  ⟨now, .initial merchants policies, [], []⟩

def set (w : World) (pid : Nat) (p : Option Process) : World :=
  { w with processes := w.processes.set pid p }

/-- The offers of a dispatcher call that selects the events with the given ids. -/
def offers (w : World) (ids : List Uuid) (answers : List Publish) : List Offer :=
  List.zipWith (fun e answer => ⟨e, w.now, answer⟩) (eventsOf w.db.outbox ids) answers

variable [PyLib] (settings : Settings)

def next (w : World) : Turn → Option World
  | .tick later => if w.now ≤ later then some { w with now := later } else none
  | .limits policy =>
    (w.db.policies.get policy.id).bind fun old =>
      if policy.merchantId = old.merchantId ∧ Db.updateError (.policy policy) = none then
        some { w with db := w.db.put (.policy policy) }
      else none
  | .request r => some { w with processes := w.processes ++ [some (.webhook r)] }
  | .dispatch batchSize ids answers committed =>
    let os := w.offers ids answers
    if Picks w.db.outbox w.now [] (dispatchLimit settings batchSize) (eventsOf w.db.outbox ids) ∧
        -- A call that is cut short has published some of its events, and commits nothing.
        (committed → os.length = (eventsOf w.db.outbox ids).length ∧
          ∀ o ∈ os, Db.updateError (.outbox (o.row settings)) = none) then
      some { w with
        queue := w.queue ++ os.filterMap Offer.message
        db := if committed then
          { w.db with outbox := w.db.outbox.putAll (os.map (Offer.row settings)) } else w.db }
    else none
  | .deliver n again =>
    (w.queue[n]?).map fun job => { w with
      queue := if again then w.queue else w.queue.eraseIdx n
      processes := w.processes ++ [some (.task job)] }
  | .transact pid env =>
    match w.processes[pid]? with
    | some (some p) =>
      match p.act settings with
      | .txn body abort =>
        if env.draws.After w.now then
          match (body env).run w.db with
          | .ok (q, d) => some { w.set pid (some q) with db := d, now := env.draws.handled }
          | .error e => some { w.set pid (some (abort e)) with now := env.draws.handled }
        else none
      | _ => none
    | _ => none
  | .fault pid =>
    match w.processes[pid]? with
    | some (some p) =>
      match p.act settings with
      | .txn _ abort => some (w.set pid (some (abort (.db .operational))))
      | _ => none
    | _ => none
  | .call pid reply =>
    match w.processes[pid]? with
    | some (some p) =>
      match p.act settings with
      | .call _ resume => some (w.set pid (some (resume reply)))
      | _ => none
    | _ => none
  | .retry pid =>
    match w.processes[pid]? with
    | some (some (.raised job true)) =>
      if job.retries < maxRetries then
        some { w.set pid (some (.raised job false)) with
          queue := w.queue ++ [{ job with retries := job.retries + 1 }] }
      else none
    | _ => none
  | .crash pid => some (w.set pid none)

inductive Reaches (w : World) : World → Prop where
  | refl : Reaches w w
  | step {u v} (turn : Turn) (before : Reaches w u) (move : u.next settings turn = some v) :
      Reaches w v

/-- Execute a given list of turns. -/
def run (w : World) : List Turn → Option World
  | [] => some w
  | turn :: turns => (w.next settings turn).bind fun v => run v turns

variable {settings} {w u v : World}

theorem Reaches.trans (h : w.Reaches settings u) (h' : u.Reaches settings v) :
    w.Reaches settings v := by
  induction h' with
  | refl => exact h
  | step turn _ move ih => exact .step turn ih move

theorem Reaches.run (h : w.Reaches settings u) {turns : List Turn}
    (run : u.run settings turns = some v) : w.Reaches settings v := by
  induction turns generalizing u with
  | nil =>
    cases run
    exact h
  | cons turn turns ih =>
    obtain ⟨u', move, run⟩ := Option.bind_eq_some_iff.1 run
    exact ih (.step turn h move) run

end World

/-! ## What a turn does -/

/-- The control states in which a process is done. -/
def Process.ended : Process → Bool
  | .answered _ | .returned .. | .raised .. => true
  | _ => false

theorem ended_abort [PyLib] {settings : Settings} {p : Process} {body : Env → Tx Process}
    {abort : Err → Process} (code : p.act settings = .txn body abort) (e : Err) :
    (abort e).ended := by
  have raised : ∀ job, (taskError job e).ended := fun job => by
    cases e with
    | db e => cases e <;> rfl
    | _ => rfl
  cases p <;> cases code
  case webhook => rfl
  all_goals exact raised _

namespace World

variable [PyLib] (settings : Settings)

/-- The effect of each turn, with what it takes. -/
inductive Does (w : World) : Turn → World → Prop where
  | tick {later} (forward : w.now ≤ later) : Does w (.tick later) { w with now := later }
  | limits {policy old} (known : w.db.policies.get policy.id = some old)
      (own : policy.merchantId = old.merchantId) :
      Does w (.limits policy) { w with db := w.db.put (.policy policy) }
  | request (r) : Does w (.request r) { w with processes := w.processes ++ [some (.webhook r)] }
  | dispatched {batchSize ids answers} (picks : Picks w.db.outbox w.now []
        (dispatchLimit settings batchSize) (eventsOf w.db.outbox ids))
      (offered : (w.offers ids answers).length = (eventsOf w.db.outbox ids).length) :
      Does w (.dispatch batchSize ids answers true) { w with
        queue := w.queue ++ (w.offers ids answers).filterMap Offer.message
        db := { w.db with outbox :=
          w.db.outbox.putAll ((w.offers ids answers).map (Offer.row settings)) } }
  | undispatched {batchSize ids answers} (picks : Picks w.db.outbox w.now []
        (dispatchLimit settings batchSize) (eventsOf w.db.outbox ids)) :
      Does w (.dispatch batchSize ids answers false)
        { w with queue := w.queue ++ (w.offers ids answers).filterMap Offer.message }
  | deliver {n again job} (queued : w.queue[n]? = some job) : Does w (.deliver n again) { w with
      queue := if again then w.queue else w.queue.eraseIdx n
      processes := w.processes ++ [some (.task job)] }
  | commit {pid env p body abort q d} (at_ : w.processes[pid]? = some (some p))
      (code : p.act settings = .txn body abort) (clock : env.draws.After w.now)
      (run : (body env).run w.db = .ok (q, d)) :
      Does w (.transact pid env) { w.set pid (some q) with db := d, now := env.draws.handled }
  | abort {pid env p body abort e} (at_ : w.processes[pid]? = some (some p))
      (code : p.act settings = .txn body abort) (clock : env.draws.After w.now)
      (run : (body env).run w.db = .error e) :
      Does w (.transact pid env) { w.set pid (some (abort e)) with now := env.draws.handled }
  | fault {pid p body abort} (at_ : w.processes[pid]? = some (some p))
      (code : p.act settings = .txn body abort) :
      Does w (.fault pid) (w.set pid (some (abort (.db .operational))))
  | call {pid reply job claim} (at_ : w.processes[pid]? = some (some (.external job claim))) :
      Does w (.call pid reply) (w.set pid (some (afterExternal settings job claim reply)))
  | retry {pid job} (at_ : w.processes[pid]? = some (some (.raised job true)))
      (left : job.retries < maxRetries) :
      Does w (.retry pid) { w.set pid (some (.raised job false)) with
        queue := w.queue ++ [{ job with retries := job.retries + 1 }] }
  | crash (pid) : Does w (.crash pid) (w.set pid none)

variable {settings} {u w v : World} {turn : Turn} {p : Process}

theorem next_does (move : w.next settings turn = some v) : Does settings w turn v := by
  cases turn with
  | tick later =>
    simp only [next] at move
    split at move
    next forward => cases move; exact .tick forward
    next => cases move
  | limits policy =>
    obtain ⟨old, known, move⟩ := Option.bind_eq_some_iff.1 move
    split at move
    next own => cases move; exact .limits known own.1
    next => cases move
  | request r => cases move; exact .request r
  | dispatch batchSize ids answers committed =>
    simp only [next] at move
    split at move
    next picks =>
      cases move
      cases committed with
      | true => exact .dispatched picks.1 (picks.2 rfl).1
      | false => exact .undispatched picks.1
    next => cases move
  | deliver n again =>
    obtain ⟨job, queued, rfl⟩ := Option.map_eq_some_iff.1 move
    exact .deliver queued
  | transact pid env =>
    simp only [next] at move
    split at move
    next p at_ =>
      split at move
      next body abort code =>
        split at move
        next clock =>
          split at move
          next q d run => cases move; exact .commit at_ code clock run
          next e run => cases move; exact .abort at_ code clock run
        next => cases move
      next => cases move
    next => cases move
  | fault pid =>
    simp only [next] at move
    split at move
    next p at_ =>
      split at move
      next body abort code => cases move; exact .fault at_ code
      next => cases move
    next => cases move
  | call pid reply =>
    simp only [next] at move
    split at move
    next p at_ =>
      split at move
      next c resume code =>
        cases move
        cases p <;> cases code
        exact .call at_
      next => cases move
    next => cases move
  | retry pid =>
    simp only [next] at move
    split at move
    next job at_ =>
      split at move
      next left => cases move; exact .retry at_ left
      next => cases move
    next => cases move
  | crash pid => cases move; exact .crash pid

/-- How a process that a turn starts or moves on came to its control state. -/
inductive Enters (settings : Settings) (w v : World) : Process → Prop where
  | request (r) : Enters settings w v (.webhook r)
  | task {job} (queued : job ∈ w.queue) : Enters settings w v (.task job)
  | commit {env p body abort q} (mem : some p ∈ w.processes)
      (code : p.act settings = .txn body abort) (clock : env.draws.After w.now)
      (run : (body env).run w.db = .ok (q, v.db)) : Enters settings w v q
  | ended {q} (ended : q.ended) : Enters settings w v q
  | called {job claim} (reply) (mem : some (.external job claim) ∈ w.processes) :
      Enters settings w v (afterExternal settings job claim reply)

omit [PyLib] in
theorem mem_set {pid : Nat} {p : Option Process} {q : Process}
    (h : some q ∈ (w.set pid p).processes) : p = some q ∨ some q ∈ w.processes :=
  (List.mem_or_eq_of_mem_set h).symm.imp_left Eq.symm

theorem Does.processes (does : Does settings w turn v) {q : Process} (h : some q ∈ v.processes) :
    some q ∈ w.processes ∨ Enters settings w v q := by
  cases does with
  | tick | limits | dispatched | undispatched => exact .inl h
  | request r =>
    rcases List.mem_append.1 h with old | new
    · exact .inl old
    · cases List.mem_singleton.1 new
      exact .inr (.request r)
  | deliver queued =>
    rcases List.mem_append.1 h with old | new
    · exact .inl old
    · cases List.mem_singleton.1 new
      exact .inr (.task (List.mem_of_getElem? queued))
  | commit at_ code clock run =>
    rcases mem_set h with new | old
    · cases new
      exact .inr (.commit (List.mem_of_getElem? at_) code clock run)
    · exact .inl old
  | abort at_ code clock run =>
    rcases mem_set h with new | old
    · cases new
      exact .inr (.ended (ended_abort code _))
    · exact .inl old
  | fault at_ code =>
    rcases mem_set h with new | old
    · cases new
      exact .inr (.ended (ended_abort code _))
    · exact .inl old
  | call at_ =>
    rcases mem_set h with new | old
    · cases new
      exact .inr (.called _ (List.mem_of_getElem? at_))
    · exact .inl old
  | retry at_ left =>
    rcases mem_set h with new | old
    · cases new
      exact .inr (.ended rfl)
    · exact .inl old
  | crash pid =>
    rcases mem_set h with new | old
    · cases new
    · exact .inl old

/-! ## Commits without interference -/

/-- What a transaction that runs alone has read is what it finds at its commit. -/
abbrev Alone : List Row → Db → Db → Prop := fun _ s t => s = t

theorem commits_of_run {p q : Process} {body : Env → Tx Process} {abort : Err → Process} {env : Env}
    {d d' : Db} (code : p.act settings = .txn body abort) (run : (body env).run d = .ok (q, d')) :
    ∃ us, d' = view d us ∧ Commits id Alone settings (fun _ _ => True) p us q d :=
  Txn.run_ok (wp_act weakens_serial code env) run

theorem work_of_run {p q : Process} {body : Env → Tx Process} {abort : Err → Process} {env : Env}
    {d d' : Db} (code : p.act settings = .txn body abort) (run : (body env).run d = .ok (q, d')) :
    Work id Alone (fun _ _ => True) p.claim? d' d := by
  obtain ⟨us, rfl, commits⟩ := commits_of_run code run
  exact commits.work

omit [PyLib] in
theorem mem_offers {ids : List Uuid} {answers : List Publish} {o : Offer}
    (h : o ∈ w.offers ids answers) : o.event ∈ eventsOf w.db.outbox ids ∧ o.time = w.now := by
  rw [offers, ← List.map_uncurry_zip_eq_zipWith] at h
  obtain ⟨⟨e, answer⟩, mem, rfl⟩ := List.mem_map.1 h
  exact ⟨(List.of_mem_zip mem).1, rfl⟩

omit [PyLib] in
/-- A row of the outbox after a dispatcher call is an old one or an offered one. -/
theorem mem_outbox_of_dispatch {ids : List Uuid} {answers : List Publish} {e : OutboxEvent}
    (h : e ∈ w.db.outbox.putAll ((w.offers ids answers).map (Offer.row settings))) :
    e ∈ w.db.outbox ∨ ∃ o ∈ w.offers ids answers, o.event ∈ w.db.outbox ∧ e = o.row settings := by
  rcases Table.mem_or_of_mem_putAll h with written | old
  · obtain ⟨o, ho, rfl⟩ := List.mem_map.1 written
    exact .inr ⟨o, ho, mem_of_mem_eventsOf (mem_offers ho).1, rfl⟩
  · exact .inl old

/-- The database grows with every turn. -/
theorem Does.grows (does : Does settings w turn v) : w.db.Grows v.db := by
  cases does with
  | commit at_ code clock run =>
    obtain ⟨us, eq, commits⟩ := commits_of_run code run
    exact eq ▸ commits.grows
  | limits => exact { Db.Grows.refl w.db with }
  | @dispatched batchSize ids answers picks =>
    refine { Db.Grows.refl w.db with outbox := Table.Agrees.extends .refl ?_ }
    intro o' ho' o ho
    obtain ⟨x, hx, rfl⟩ := List.mem_map.1 ho'
    obtain ⟨mem, id⟩ := Table.get_eq_some.1 ho
    have : x.event = o := Table.eq_of_key (mem_of_mem_eventsOf (mem_offers hx).1) mem
      ((x.same settings).id.symm.trans id.symm)
    exact this ▸ x.same settings
  | _ => exact .refl w.db

/-! ## Soundness -/

omit [PyLib] in
theorem past_alone {d : Db} (sound : d.Sound) : Past id Alone d where
  now := rfl
  trans := Eq.trans
  sound h := h ▸ sound
  grows h h' := by
    obtain rfl := h
    obtain rfl := h'
    exact .refl _

/-- The claim that is carried is on an action of the claim's case. -/
def Backs (d : Db) (carried : Option Claim) : Prop :=
  ∀ claim, carried = some claim → ∃ a ∈ d.actions, a.id = claim.actionId ∧
    a.recoveryCaseId = claim.caseId

omit [PyLib] in
theorem Backs.backed {d : Db} {carried : Option Claim} (h : Backs d carried) :
    Backed id Alone carried d := by
  rintro claim carries _ action rfl found
  obtain ⟨a, ha, id, own⟩ := h claim carries
  obtain ⟨mem, id'⟩ := Table.get_eq_some.1 found
  exact Table.eq_of_key mem ha (id'.trans id.symm) ▸ own

omit [PyLib] in
theorem Backs.grows {d d' : Db} {carried : Option Claim} (h : Backs d carried)
    (grows : d.Grows d') : Backs d' carried := by
  intro claim carries
  obtain ⟨a, ha, id, own⟩ := h claim carries
  obtain ⟨a', ha', same⟩ := grows.actions a ha
  exact ⟨a', ha', same.id.trans id, same.recoveryCaseId.trans own⟩

/-- What holds in every reachable world. -/
structure Sound (w : World) : Prop where
  db : w.db.Sound
  claims : ∀ p, some p ∈ w.processes → Backs w.db p.claim?

omit [PyLib] in
theorem Sound.start (now : Time) (merchants : Table Merchant) (policies : Table MerchantPolicy) :
    (World.start now merchants policies).Sound where
  db := Db.sound_initial merchants policies
  claims _ h := absurd h List.not_mem_nil

omit [PyLib] in
/-- The dispatcher changes nothing that soundness is about. -/
theorem sound_of_same {d : Db} (sound : d.Sound) {outbox : Table OutboxEvent}
    (same : ∀ o' ∈ outbox, ∃ o ∈ d.outbox, o.Same o') : { d with outbox }.Sound where
  toCoherent := { sound.toCoherent with
    outbox := fun o' ho' => by
      obtain ⟨o, ho, same⟩ := same o' ho'
      obtain ⟨c, hc, id, merchant⟩ := sound.outbox o ho
      exact ⟨c, hc, id.trans same.aggregateId.symm, merchant.trans same.merchantId.symm⟩ }
  toOnce := { sound.toOnce with
    scheduled := fun o' ho' type c hc id => by
      obtain ⟨o, ho, same⟩ := same o' ho'
      exact sound.scheduled o ho (same.eventType ▸ type) c hc (id.trans same.aggregateId)
    oneScheduled := fun o' ho' p' hp' type type' together => by
      obtain ⟨o, ho, sameO⟩ := same o' ho'
      obtain ⟨p, hp, sameP⟩ := same p' hp'
      have : o = p := sound.oneScheduled o ho p hp (sameO.eventType ▸ type)
        (sameP.eventType ▸ type')
        (sameO.aggregateId ▸ sameP.aggregateId ▸ together)
      exact Table.eq_of_key ho' hp' (sameO.id.trans (this ▸ sameP.id.symm)) }

omit [PyLib] in
theorem same_of_dispatch {ids : List Uuid} {answers : List Publish} :
    ∀ e' ∈ w.db.outbox.putAll ((w.offers ids answers).map (Offer.row settings)), ∃ e ∈ w.db.outbox,
      e.Same e' := by
  intro e' he'
  rcases mem_outbox_of_dispatch he' with old | ⟨o, -, mem, rfl⟩
  · exact ⟨e', old, .refl e'⟩
  · exact ⟨o.event, mem, o.same settings⟩

/-- A process carries a claim from the commit that made it. -/
theorem Enters.backs (h : Enters settings w v p) (grows : w.db.Grows v.db)
    (claims : ∀ p, some p ∈ w.processes → Backs w.db p.claim?) : Backs v.db p.claim? := by
  have none : ∀ {p : Process}, p.claim? = none → Backs v.db p.claim? := fun none claim carries => by
    rw [none] at carries
    cases carries
  cases h with
  | request | task => exact none rfl
  | ended ended => exact none (by cases p <;> first | rfl | cases ended)
  | called reply mem =>
    have backs := (claims _ mem).grows grows
    unfold afterExternal
    split <;> exact backs
  | commit mem code clock run =>
    obtain ⟨us, eq, commits⟩ := commits_of_run code run
    cases commits with
    | webhook | eligible | unnamed | success => exact none rfl
    | task effect => cases effect <;> exact none rfl
    | @failure job claim error =>
      unfold afterFailure
      split <;> exact none rfl
    | claim id effect =>
      cases effect with
      | refused | cancelled => exact none rfl
      | @claimed claim action a case ps details _ held open_ from_ audit =>
        intro claim' carries
        obtain rfl := Option.some.inj carries
        obtain ⟨_, _, rfl, rfl, found, foundCase⟩ := held.seen
        obtain ⟨mem, rfl⟩ := Table.get_eq_some.1 found
        obtain ⟨a', ha', same⟩ := grows.actions action mem
        refine ⟨a', ha', same.id.trans from_.actionId.symm, ?_⟩
        rw [same.recoveryCaseId, from_.caseId]
        exact (Table.get_eq_some.1 foundCase).2.symm

theorem Does.sound (does : Does settings w turn v) (h : w.Sound) : v.Sound where
  db := by
    cases does with
    | commit at_ code clock run =>
      have backs := h.claims _ (List.mem_of_getElem? at_)
      obtain ⟨us, eq, commits⟩ := commits_of_run code run
      exact (work_of_run code run).sound (past_alone h.db) (eq ▸ commits.grows) backs.backed
    | limits => exact ⟨{ h.db.toCoherent with }, { h.db.toOnce with }⟩
    | dispatched => exact sound_of_same h.db same_of_dispatch
    | _ => exact h.db
  claims p hp := by
    rcases does.processes hp with old | new
    · exact (h.claims p old).grows does.grows
    · exact new.backs does.grows h.claims

theorem Reaches.sound (h : u.Reaches settings w) (sound : u.Sound) : w.Sound := by
  induction h with
  | refl => exact sound
  | step turn _ move ih => exact (next_does move).sound ih

end World

/-! ## What a transaction that runs alone has read -/

section

variable {d : Db} {env : Draws} {case : RecoveryCase} {ps : List Row}

theorem Held.alone {actionId : Uuid} {action a : RecoveryAction}
    (held : Held id World.Alone env actionId action a case ps d) :
    action = a ∧ d.actions.get actionId = some a ∧
      a ∈ d.actions ∧ a.status = .approved ∧ d.cases.get case.id = some case ∧
        case.id = a.recoveryCaseId := by
  obtain ⟨_, _, rfl, rfl, found, foundCase⟩ := held.seen
  obtain rfl := Option.some.inj (found.symm.trans held.base)
  obtain ⟨hc, id⟩ := Table.get_eq_some.1 foundCase
  exact ⟨rfl, found, (Table.get_eq_some.1 found).1, held.approved, Table.get_of_mem hc, id⟩

theorem Found.alone {claim : Claim} {action : RecoveryAction} {carried : Option Claim}
    (found : Found id World.Alone claim action case d) (carries : carried = some claim)
    (backs : World.Backs d carried) :
    d.actions.get claim.actionId = some action ∧ action ∈ d.actions ∧
      d.cases.get case.id = some case ∧ action.recoveryCaseId = case.id := by
  obtain ⟨_, _, rfl, rfl, found, foundCase⟩ := found
  obtain ⟨hc, id⟩ := Table.get_eq_some.1 foundCase
  exact ⟨found, (Table.get_eq_some.1 found).1, Table.get_of_mem hc,
    (backs.backed claim carries _ action rfl found).trans id.symm⟩

theorem Taken.alone {c : RecoveryCase} (taken : Taken id World.Alone env case c ps d) :
    case = c ∧ d.cases.get c.id = some c ∧ c.status = .eligible := by
  obtain ⟨_, rfl, found⟩ := taken.seen
  obtain rfl := Option.some.inj (found.symm.trans taken.base)
  exact ⟨rfl, found, taken.eligible⟩

theorem Moves.alone {new : RecoveryCaseStatus} {rows : List Row}
    (moves : Moves id World.Alone new case rows d) (found : d.cases.get case.id = some case) :
    case.status ≠ .actionScheduled ∧ casesOf rows = [] ∨
      case.status = .actionScheduled ∧ casesOf rows = [case.become new] := by
  cases moves with
  | skipped missed =>
    refine .inl ⟨fun scheduled => ?_, rfl⟩
    obtain ⟨_, rfl, other⟩ := missed scheduled
    exact other case found ⟨scheduled, rfl⟩
  | moved base status read =>
    obtain rfl := Option.some.inj (found.symm.trans base)
    exact .inr ⟨read, rfl⟩

theorem Recovers.alone [PyLib] {allows : Db → Stmt → Prop} {inbox : WebhookEvent} {prs : List Row}
    {r : RecoveryCase} {cancels : List RecoveryAction} {merchant : Merchant}
    {entity : RazorpayPaymentEntity} {payment : Payment}
    (recovers : Recovers id World.Alone allows inbox prs case r cancels d)
    (chosen : Chosen id World.Alone merchant entity payment case d) :
    r = case ∧ cancels = d.openActions case.id ∧ d.cases.get case.id = some case := by
  obtain ⟨_, _, rfl, opened, -, base, rfl⟩ := recovers.read
  obtain ⟨_, rfl, found⟩ := chosen.read
  exact ⟨Option.some.inj (base.symm.trans found), opened, found⟩

end

/-! ## Sample runs -/

/-- A world with one active merchant. -/
def sampleWorld : World := .start 1 (.put .empty ⟨.ofNat 1, true⟩) .empty

def sampleReply : ExternalReply := ⟨fun _ => .timeout, .ofNat 7, .ofNat 8⟩

/-- A failed payment, and the decision on its case: a payment link. -/
def decideTurns : List Turn :=
  [.request expiredInstrument.request, .transact 0 (.numbered 1),
    .dispatch none [.ofNat 14] [.accepted] true, .deliver 0 false, .tick 2,
    .transact 1 (.numbered 2), .tick 3, .transact 1 (.numbered 3)]

/-- The link is issued; its message stays at the broker. -/
def linkTurns : List Turn :=
  [.dispatch none [.ofNat 34] [.accepted] true, .deliver 0 true, .tick 4,
    .transact 2 (.numbered 4), .tick 5, .transact 2 (.numbered 5), .call 2 sampleReply, .tick 6,
    .transact 2 (.numbered 6)]

end RecoverAI
