import Mathlib.Algebra.Order.BigOperators.Group.List
import RecoverAI.Outbox.Accounting

/-!
# Draining the outbox

One dispatcher calls again and again while nothing is added and nothing becomes due. Failing events
stay at the head of the order and are retried before the others, so the number of accepted events
says nothing about progress: what decreases with every call are the attempts that are left.
-/
namespace RecoverAI

open Store

variable {settings : Settings} {now : Time} {t t' : Table OutboxEvent} {os : List Offer}

/-! ## Sums over a table -/

theorem Store.Table.sum_put {ρ κ : Type} [Keyed ρ κ] [DecidableEq κ] {t : Table ρ} {old new : ρ}
    (f : ρ → Int) (mem : old ∈ t) (same : key old = key new) :
    ((t.put new).rows.map f).sum = (t.rows.map f).sum - f old + f new := by
  have upserts : ∀ l : List ρ, (l.map key).Nodup → old ∈ l →
      ((Table.upsert new l).map f).sum = (l.map f).sum - f old + f new := by
    intro l nodup mem
    induction l with
    | nil => cases mem
    | cons x l ih =>
      rw [List.map_cons, List.nodup_cons] at nodup
      rcases List.mem_cons.1 mem with rfl | later
      · rw [Table.upsert, if_pos same]
        simp only [List.map_cons, List.sum_cons]
        omega
      · have other : key x ≠ key new :=
          fun h => nodup.1 (h.trans same.symm ▸ List.mem_map_of_mem later)
        rw [Table.upsert, if_neg other]
        simp only [List.map_cons, List.sum_cons, ih nodup.2 later]
        omega
  exact upserts t.rows t.nodup mem

/-! ## Calls -/

/-- A call that commits: it offers the events it picks, no other call having locked any,
and writes the answers. -/
structure Dispatches (settings : Settings) (batchSize : Option Int) (now : Time)
    (t t' : Table OutboxEvent) (os : List Offer) : Prop where
  picks : Picks t now [] (dispatchLimit settings batchSize) (os.map Offer.event)
  stored : ∀ o ∈ os, Db.updateError (.outbox (o.row settings)) = none
  written : t' = t.putAll (os.map (Offer.row settings))

/-- The attempts an event has left while it is due. -/
def OutboxEvent.remaining (settings : Settings) (now : Time) (e : OutboxEvent) : Int :=
  if e.isDue now then settings.outboxMaxDispatchAttempts - e.attempts else 0

/-- The attempts left in the table. -/
def undelivered (settings : Settings) (now : Time) (t : Table OutboxEvent) : Int :=
  (t.rows.map (OutboxEvent.remaining settings now)).sum

/-- No pending event has used up its attempts. -/
def Attemptable (settings : Settings) (t : Table OutboxEvent) : Prop :=
  ∀ e ∈ t, e.status = .pending → e.attempts < settings.outboxMaxDispatchAttempts

theorem remaining_pos (few : Attemptable settings t) {e : OutboxEvent} (he : e ∈ t)
    (due : e.isDue now) : 0 < e.remaining settings now := by
  have left := few e he (OutboxEvent.isDue_iff.1 due).1
  rw [OutboxEvent.remaining, if_pos due]
  omega

theorem remaining_nonneg (few : Attemptable settings t) {e : OutboxEvent} (he : e ∈ t) :
    0 ≤ e.remaining settings now := by
  by_cases due : e.isDue now
  · exact Int.le_of_lt (remaining_pos few he due)
  · rw [OutboxEvent.remaining, if_neg due]

/-- Where nothing is left, nothing is due. -/
theorem none_due (few : Attemptable settings t) (empty : undelivered settings now t ≤ 0) :
    ∀ e ∈ t, e.isDue now = false := by
  intro e he
  by_contra due
  rw [Bool.not_eq_false] at due
  have positive := remaining_pos few he due
  have part : e.remaining settings now ≤ undelivered settings now t :=
    List.single_le_sum (fun n hn => by
      obtain ⟨x, hx, rfl⟩ := List.mem_map.1 hn
      exact remaining_nonneg few hx) _ (List.mem_map_of_mem he)
  omega

/-- An offer takes an attempt, or the event leaves the queue. -/
theorem remaining_offered {e : OutboxEvent} (due : e.isDue now)
    (left : e.attempts < settings.outboxMaxDispatchAttempts) (time : Time) (answer : Publish) :
    (e.offered settings time answer).remaining settings now < e.remaining settings now := by
  obtain ⟨pending, -⟩ := OutboxEvent.isDue_iff.1 due
  rw [OutboxEvent.remaining, OutboxEvent.remaining, if_pos due]
  cases answer with
  | accepted =>
    have settled : ¬ (e.offered settings time .accepted).isDue now := fun h =>
      nomatch (OutboxEvent.isDue_iff.1 h).1
    rw [if_neg settled]
    omega
  | refused error =>
    rw [OutboxEvent.offered_attempts]
    split <;> omega

theorem attemptable_offered {e : OutboxEvent} (time : Time) (answer : Publish)
    (pending : (e.offered settings time answer).status = .pending) :
    (e.offered settings time answer).attempts < settings.outboxMaxDispatchAttempts := by
  cases answer with
  | accepted => cases pending
  | refused error =>
    simp only [OutboxEvent.offered] at pending ⊢
    split at pending
    · cases pending
    · omega

/-! ## One call -/

/-- What the offers of a call do to the table, one after the other. -/
theorem undelivered_putAll (few : Attemptable settings t)
    (held : ∀ o ∈ os, o.event ∈ t ∧ o.event.isDue now) (nodup : (os.map (·.event.id)).Nodup) :
    undelivered settings now (t.putAll (os.map (Offer.row settings))) + os.length ≤
      undelivered settings now t ∧
      Attemptable settings (t.putAll (os.map (Offer.row settings))) := by
  induction os generalizing t with
  | nil => exact ⟨by simp, few⟩
  | cons o os ih =>
    rw [List.map_cons, List.nodup_cons] at nodup
    obtain ⟨mem, due⟩ := held o (List.mem_cons_self ..)
    have same : key o.event = key (o.row settings) := (OutboxEvent.offered_id ..).symm
    have few' : Attemptable settings (t.put (o.row settings)) := by
      intro e he pending
      rcases Table.mem_put.1 he with rfl | ⟨old, -⟩
      · exact attemptable_offered o.time o.answer pending
      · exact few e old pending
    have held' : ∀ o' ∈ os, o'.event ∈ t.put (o.row settings) ∧ o'.event.isDue now := by
      intro o' ho'
      obtain ⟨mem', due'⟩ := held o' (List.mem_cons_of_mem o ho')
      refine ⟨Table.mem_put.2 (.inr ⟨mem', fun clash => nodup.1 ?_⟩), due'⟩
      have id : o'.event.id = o.event.id := clash.trans same.symm
      exact id ▸ List.mem_map_of_mem (f := fun x : Offer => x.event.id) ho'
    obtain ⟨rest, few''⟩ := ih few' held' nodup.2
    have one := remaining_offered due (few _ mem (OutboxEvent.isDue_iff.1 due).1) o.time o.answer
    have sum : undelivered settings now (t.put (o.row settings)) = undelivered settings now t -
        o.event.remaining settings now + (o.row settings).remaining settings now :=
          Table.sum_put _ mem same
    refine ⟨?_, few''⟩
    rw [List.map_cons, Table.putAll_cons, List.length_cons]
    unfold Offer.row at sum rest ⊢
    omega

variable {batchSize : Option Int}

theorem Dispatches.offers (call : Dispatches settings batchSize now t t' os) :
    (∀ o ∈ os, o.event ∈ t ∧ o.event.isDue now) ∧ (os.map (·.event.id)).Nodup := by
  refine ⟨fun o ho => ?_, by simpa [Function.comp_def] using call.picks.nodup⟩
  obtain ⟨mem, due, -⟩ := call.picks.free _ (List.mem_map_of_mem ho)
  exact ⟨mem, due⟩

/-- A call with something to do offers something. -/
theorem Dispatches.busy (call : Dispatches settings batchSize now t t' os)
    (limit : 1 ≤ dispatchLimit settings batchSize) (due : ∃ e ∈ t, e.isDue now) :
    0 < os.length := by
  obtain ⟨e, he, due⟩ := due
  by_contra none
  obtain rfl : os = [] := List.length_eq_zero_iff.1 (Nat.eq_zero_of_not_pos none)
  have full := (call.picks.oldest e he due List.not_mem_nil List.not_mem_nil).1
  simp only [List.map_nil, List.length_nil] at full
  omega

theorem Dispatches.decreases (call : Dispatches settings batchSize now t t' os)
    (few : Attemptable settings t) :
    undelivered settings now t' + os.length ≤ undelivered settings now t ∧
      Attemptable settings t' := by
  obtain ⟨held, nodup⟩ := call.offers
  exact call.written ▸ undelivered_putAll few held nodup

/-- Every event stays, with its time. -/
theorem Dispatches.stays (call : Dispatches settings batchSize now t t' os) {e : OutboxEvent}
    (he : e ∈ t) : ∃ e' ∈ t', e'.id = e.id ∧ e'.deliverAt = e.deliverAt := by
  obtain ⟨held, -⟩ := call.offers
  obtain ⟨e', he', same⟩ := Table.exists_mem_putAll he (os.map (Offer.row settings))
  refine ⟨e', call.written ▸ he', same, ?_⟩
  rcases Table.mem_or_of_mem_putAll he' with written | old
  · obtain ⟨o, ho, rfl⟩ := List.mem_map.1 written
    have : o.event = e :=
      Table.eq_of_key (held o ho).1 he ((OutboxEvent.offered_id ..).symm.trans same)
    rw [← this]
    exact OutboxEvent.offered_deliverAt ..
  · rw [Table.eq_of_key old he same]

/-! ## Runs -/

/-- So many committed calls one after the other, from `now` on; nothing is added, and what is due at
a call was due at `now`. -/
inductive Calls (settings : Settings) (now : Time) (t : Table OutboxEvent) :
    Nat → Table OutboxEvent → Prop where
  | none : Calls settings now t 0 t
  | more {n t' t'' at_ batchSize os} (before : Calls settings now t n t')
      (limit : 1 ≤ dispatchLimit settings batchSize)
      (meanwhile : ∀ e ∈ t', e.isDue at_ = e.isDue now)
      (call : Dispatches settings batchSize at_ t' t'' os) : Calls settings now t (n + 1) t''

theorem undelivered_congr {at_ : Time} (same : ∀ e ∈ t, e.isDue at_ = e.isDue now) :
    undelivered settings at_ t = undelivered settings now t := by
  refine congrArg List.sum (List.map_congr_left fun e he => ?_)
  rw [OutboxEvent.remaining, OutboxEvent.remaining, same e he]

/-- A call makes nothing due. -/
theorem Dispatches.meanwhile {at_ : Time} (call : Dispatches settings batchSize at_ t t' os)
    (same : ∀ e ∈ t, e.isDue at_ = e.isDue now) : ∀ e ∈ t', e.isDue at_ = e.isDue now := by
  intro e he
  rcases Table.mem_or_of_mem_putAll (call.written ▸ he) with written | old
  · obtain ⟨o, ho, rfl⟩ := List.mem_map.1 written
    obtain ⟨mem, due⟩ := call.offers.1 o ho
    have event := same _ mem
    have status := (OutboxEvent.isDue_iff.1 due).1
    simp only [OutboxEvent.isDue, status, Offer.row, OutboxEvent.offered_deliverAt, decide_true,
      Bool.true_and] at event ⊢
    rw [event]
  · exact same e old

/-- Where nothing is due, a call does nothing. -/
theorem Dispatches.idle (call : Dispatches settings batchSize now t t' os)
    (none : ∀ e ∈ t, e.isDue now = false) : t' = t := by
  obtain rfl : os = [] := List.eq_nil_iff_forall_not_mem.2 fun o ho => by
    obtain ⟨mem, due⟩ := call.offers.1 o ho
    rw [none _ mem] at due
    cases due
  exact call.written

/-- Every call but those with nothing to do takes an attempt. -/
theorem Calls.decreases {n : Nat} (few : Attemptable settings t)
    (calls : Calls settings now t n t') :
    Attemptable settings t' ∧
      (undelivered settings now t' + n ≤ undelivered settings now t ∨ ∀ e ∈ t',
        e.isDue now = false) := by
  induction calls with
  | none => exact ⟨few, .inl (by simp)⟩
  | @more n u v at_ batchSize os before limit meanwhile call ih =>
    obtain ⟨few', left⟩ := ih
    obtain ⟨less, few''⟩ := call.decreases few'
    rw [undelivered_congr meanwhile, undelivered_congr (call.meanwhile meanwhile)] at less
    refine ⟨few'', ?_⟩
    by_cases due : ∃ e ∈ u, e.isDue now
    · have busy := call.busy limit (due.imp fun e ⟨he, h⟩ => ⟨he, (meanwhile e he).trans h⟩)
      refine .inl ?_
      rcases left with left | none
      · push_cast
        omega
      · obtain ⟨e, he, h⟩ := due
        rw [none e he] at h
        cases h
    · have none : ∀ e ∈ u, e.isDue now = false := fun e he => by
        by_contra h
        exact due ⟨e, he, by simpa using h⟩
      have same := call.idle fun e he => (meanwhile e he).trans (none e he)
      exact .inr (same ▸ none)

theorem Calls.stays {n : Nat} (calls : Calls settings now t n t') {e : OutboxEvent} (he : e ∈ t) :
    ∃ e' ∈ t', e'.id = e.id ∧ e'.deliverAt = e.deliverAt := by
  induction calls with
  | none => exact ⟨e, he, rfl, rfl⟩
  | more _ _ _ call ih =>
    obtain ⟨x, hx, id, deliverAt⟩ := ih
    obtain ⟨y, hy, id', deliverAt'⟩ := call.stays hx
    exact ⟨y, hy, id'.trans id, deliverAt'.trans deliverAt⟩

/-- The calls drain the table. -/
structure Drains (settings : Settings) (t : Table OutboxEvent) : Prop where
  decreases : ∀ batchSize now t' os, 1 ≤ dispatchLimit settings batchSize →
    Dispatches settings batchSize now t t' os → (∃ e ∈ t, e.isDue now) →
    undelivered settings now t' < undelivered settings now t
  drained : ∀ now n t', Calls settings now t n t' → undelivered settings now t ≤ n →
    ∀ e ∈ t', e.isDue now = false
  served : ∀ now n t', Calls settings now t n t' → undelivered settings now t ≤ n →
    ∀ e ∈ t, e.isDue now → ∃ e' ∈ t', e'.id = e.id ∧ e'.status ≠ .pending

/-- After as many calls as attempts are left nothing is due, and every event that was has been
served; a limit of one attempt or more makes this true of every table that is reached. -/
theorem dispatcher_drains (settings : Settings) :
    (∀ t, Attemptable settings t → Drains settings t) ∧
    (1 ≤ settings.outboxMaxDispatchAttempts → ∀ s,
      Dispatching.Reaches settings s → Attemptable settings s.outbox) := by
  refine ⟨fun t few => ?_, fun limit s reaches e he pending => ?_⟩
  · have drained : ∀ now n t', Calls settings now t n t' → undelivered settings now t ≤ n →
        ∀ e ∈ t', e.isDue now = false := by
      intro now n t' calls enough
      obtain ⟨few', left | none⟩ := calls.decreases few
      · exact none_due few' (by omega)
      · exact none
    refine ⟨fun batchSize now t' os limit call due => ?_, drained,
      fun now n t' calls enough e he due => ?_⟩
    · have less := (call.decreases few).1
      have busy := call.busy limit due
      omega
    · obtain ⟨e', he', id, deliverAt⟩ := calls.stays he
      refine ⟨e', he', id, fun pending => ?_⟩
      have late : e'.isDue now :=
        OutboxEvent.isDue_iff.2 ⟨pending, deliverAt ▸ (OutboxEvent.isDue_iff.1 due).2⟩
      rw [drained now n t' calls enough e' he'] at late
      cases late
  · have accounts := reaches.keeps.accounts e he
    have few := (accounts.pending pending).2
    rw [accounts.attempts]
    unfold maxOffers at few
    omega

/-- One event with one attempt, and a call that the broker refuses. -/
theorem dispatcher_drains_sample :
    let settings : Settings := { outboxMaxDispatchAttempts := 1 }
    let t : Table OutboxEvent := .put .empty refusedEvent
    let os : List Offer := [⟨refusedEvent, 1, .refused "unreachable"⟩]
    let t' := t.putAll (os.map (Offer.row settings))
    Attemptable settings t ∧ (∃ e ∈ t, e.isDue 1) ∧ Dispatches settings none 1 t t' os ∧
      Calls settings 1 t 1 t' ∧
      undelivered settings 1 t' < undelivered settings 1 t ∧ ∀ e ∈ t', e.isDue 1 = false := by
  intro settings t os t'
  have few : Attemptable settings t := by
    unfold Attemptable
    decide
  have due : ∃ e ∈ t, e.isDue 1 := ⟨refusedEvent, Table.mem_put.2 (.inl rfl), by decide⟩
  have picks : Picks t 1 [] (dispatchLimit settings none) (eventsOf t [.ofNat 14]) := by decide
  have call : Dispatches settings none 1 t t' os := ⟨picks, by decide, rfl⟩
  have calls : Calls settings 1 t 1 t' := .more .none (by decide) (fun _ _ => rfl) call
  obtain ⟨decreases, drained, -⟩ := (dispatcher_drains settings).1 t few
  exact ⟨few, due, call, calls, decreases _ _ _ _ (by decide) call due,
    drained _ _ _ calls (by decide)⟩

/-- With a limit of no attempts a new event has used them up. -/
theorem unattemptable_reached : ∃ s, Dispatching.Reaches { outboxMaxDispatchAttempts := 0 } s ∧
    ¬ Attemptable { outboxMaxDispatchAttempts := 0 } s.outbox := by
  have new : (Table.empty (ρ := OutboxEvent)).get refusedEvent.id = none := rfl
  have inserted := Dispatching.Reaches.step (.start 0)
    (@Dispatching.Step.insert { outboxMaxDispatchAttempts := 0 } _ _ new rfl rfl)
  refine ⟨_, inserted, fun few => ?_⟩
  have left := few refusedEvent (Table.mem_put.2 (.inl rfl)) rfl
  exact absurd left (by decide)

end RecoverAI
