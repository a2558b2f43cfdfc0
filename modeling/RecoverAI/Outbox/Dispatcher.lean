import RecoverAI.Config

/-!
# Outbox dispatcher

The parts of `dispatch_outbox_events`: which events a call selects and locks, and what it makes of
an event by the broker's answer.
-/
namespace RecoverAI

open Store

/-- What `apply_async` does: it hands the message over, or it raises. -/
inductive Publish where
  | accepted
  | refused (error : String)
deriving DecidableEq

/-- `batch_size or settings.outbox_dispatch_batch_size`. -/
def dispatchLimit (settings : Settings) (batchSize : Option Int) : Int :=
  match batchSize with
  | some n => if n = 0 then settings.outboxDispatchBatchSize else n
  | none => settings.outboxDispatchBatchSize

namespace OutboxEvent

/-- The `WHERE` of the selection. -/
def isDue (e : OutboxEvent) (now : Time) : Bool := e.status = .pending && e.deliverAt.all (· ≤ now)

/-- The event after it was offered to the broker. -/
def offered (settings : Settings) (now : Time) (e : OutboxEvent) : Publish → OutboxEvent
  | .accepted =>
    { e with
      status := .published
      publishedAt := some now
      attempts := e.attempts + 1
      lastError := none }
  | .refused error =>
    { e with
      attempts := e.attempts + 1
      lastError := some (Text.slice error 512)
      status := if e.attempts + 1 ≥ settings.outboxMaxDispatchAttempts then .failed else e.status }

section

variable (settings : Settings) (now : Time) (e : OutboxEvent) (answer : Publish)

@[simp] theorem offered_id : (e.offered settings now answer).id = e.id := by cases answer <;> rfl
@[simp] theorem offered_deliverAt : (e.offered settings now answer).deliverAt = e.deliverAt := by
  cases answer <;> rfl
@[simp] theorem offered_attempts : (e.offered settings now answer).attempts = e.attempts + 1 := by
  cases answer <;> rfl

end

theorem isDue_iff {e : OutboxEvent} {now : Time} :
    e.isDue now ↔ e.status = .pending ∧ ∀ at_, e.deliverAt = some at_ → at_ ≤ now := by
  cases h : e.deliverAt <;> simp [isDue, h]

/-- An event that is due stays due. -/
theorem isDue_later {e : OutboxEvent} {now later : Time} (due : e.isDue now) (h : now ≤ later) :
    e.isDue later := by
  rw [isDue_iff] at due ⊢
  exact ⟨due.1, fun at_ hat => (due.2 at_ hat).trans h⟩

end OutboxEvent

/-- The rows that `SELECT ... ORDER BY created_at LIMIT ... FOR UPDATE SKIP LOCKED` may answer with:
the oldest ones that are due and that no other call has locked. A negative limit raises. -/
structure Picks (t : Table OutboxEvent) (now : Time) (locked : List Uuid) (limit : Int)
    (es : List OutboxEvent) : Prop where
  free : ∀ e ∈ es, e ∈ t ∧ e.isDue now ∧ e.id ∉ locked
  nodup : (es.map OutboxEvent.id).Nodup
  sorted : es.Pairwise fun e e' => e.createdAt ≤ e'.createdAt
  length : (es.length : Int) ≤ limit
  oldest : ∀ e ∈ t, e.isDue now → e.id ∉ locked → e.id ∉ es.map OutboxEvent.id →
    (es.length : Int) = limit ∧ ∀ x ∈ es, x.createdAt ≤ e.createdAt

/-- The events with the given ids. -/
def eventsOf (t : Table OutboxEvent) (ids : List Uuid) : List OutboxEvent := ids.filterMap t.get

theorem mem_of_mem_eventsOf {t : Table OutboxEvent} {ids : List Uuid} {e : OutboxEvent}
    (h : e ∈ eventsOf t ids) : e ∈ t := by
  obtain ⟨id, -, found⟩ := List.mem_filterMap.1 h
  exact (Table.get_eq_some.1 found).1

instance (t : Table OutboxEvent) (now : Time) (locked : List Uuid) (limit : Int) (ids : List Uuid) :
    Decidable (Picks t now locked limit (eventsOf t ids)) :=
  let es := eventsOf t ids
  decidable_of_iff ((∀ e ∈ es, e.isDue now ∧ e.id ∉ locked) ∧ (es.map OutboxEvent.id).Nodup ∧
    (es.Pairwise fun e e' => e.createdAt ≤ e'.createdAt) ∧ (es.length : Int) ≤ limit ∧
    ∀ e ∈ t, e.isDue now → e.id ∉ locked → e.id ∉ es.map OutboxEvent.id →
      (es.length : Int) = limit ∧ ∀ x ∈ es, x.createdAt ≤ e.createdAt)
    ⟨fun ⟨free, nodup, sorted, length, oldest⟩ =>
      ⟨fun e he => ⟨mem_of_mem_eventsOf he, free e he⟩, nodup, sorted, length, oldest⟩,
      fun h => ⟨fun e he => (h.free e he).2, h.nodup, h.sorted, h.length, h.oldest⟩⟩

/-- One publish of an event: the row as the call selected it, and when and
how the broker answered. -/
structure Offer where
  event : OutboxEvent
  time : Time
  answer : Publish

/-- The row a call writes for an offer. -/
def Offer.row (settings : Settings) (o : Offer) : OutboxEvent :=
  o.event.offered settings o.time o.answer

end RecoverAI
