import RecoverAI.Outbox.Dispatcher

/-!
# Outbox accounting

Any number of dispatcher calls against one outbox table and one broker. A publish is not undone when
the call rolls back, so what the broker has seen is compared with the table through the offers of
all calls, ended or not.
-/
namespace RecoverAI

open Store

/-- A call of `dispatch_outbox_events` before its end: the selected events that are still to be
offered, and the offers made, the last one first. -/
structure DispatchCall where
  todo : List OutboxEvent
  done : List Offer

structure EndedCall where
  committed : Bool
  offers : List Offer

structure Dispatching where
  now : Time
  outbox : Table OutboxEvent
  calls : List DispatchCall
  /-- The calls that ended, the last one first. -/
  ended : List EndedCall

/-- The rows a call has locked. -/
def DispatchCall.events (c : DispatchCall) : List OutboxEvent := c.todo ++ c.done.map Offer.event

namespace Dispatching

def initial (now : Time) : Dispatching := ⟨now, .empty, [], []⟩

def locked (s : Dispatching) : List Uuid := (s.calls.flatMap DispatchCall.events).map OutboxEvent.id

/-- Time passes, an event is added, or a call goes on by one statement or publish. -/
inductive Step (settings : Settings) : Dispatching → Dispatching → Prop where
  | tick {s now} (later : s.now ≤ now) : Step settings s { s with now }
  | insert {s e} (new : s.outbox.get e.id = none) (pending : e.status = .pending)
      (unoffered : e.attempts = 0) :
      Step settings s { s with outbox := s.outbox.put e }
  | select {s batchSize es}
      (picks : Picks s.outbox s.now s.locked (dispatchLimit settings batchSize) es) :
      Step settings s { s with calls := ⟨es, []⟩ :: s.calls }
  | publish {s l r e es done} (call : s.calls = l ++ ⟨e :: es, done⟩ :: r) (answer : Publish) :
      Step settings s { s with calls := l ++ ⟨es, ⟨e, s.now, answer⟩ :: done⟩ :: r }
  | commit {s l r done} (call : s.calls = l ++ ⟨[], done⟩ :: r)
      (stored : ∀ o ∈ done, Db.updateError (.outbox (o.row settings)) = none) :
      Step settings s { s with
        outbox := s.outbox.putAll (done.map (Offer.row settings))
        calls := l ++ r
        ended := ⟨true, done⟩ :: s.ended }
  | rollback {s l r c} (call : s.calls = l ++ c :: r) :
      Step settings s { s with calls := l ++ r, ended := ⟨false, c.done⟩ :: s.ended }

inductive Reaches (settings : Settings) : Dispatching → Prop where
  | start (now : Time) : Reaches settings (initial now)
  | step {s s'} (h : Reaches settings s) (hs : Step settings s s') : Reaches settings s'

/-- All offers the broker has seen. -/
def offers (s : Dispatching) : List Offer :=
  s.calls.flatMap DispatchCall.done ++ s.ended.flatMap EndedCall.offers

end Dispatching

/-- The answer to the offer of an event among the offers of a call. -/
def answerTo (id : Uuid) (os : List Offer) : Option Publish :=
  (os.find? (·.event.id = id)).map Offer.answer

/-- The answers of the committed calls to the offers of an event, the last one first. -/
def verdicts (id : Uuid) (ended : List EndedCall) : List Publish :=
  ended.filterMap fun x => if x.committed then answerTo id x.offers else none

/-- How often the broker accepted an event. -/
def accepts (id : Uuid) (os : List Offer) : Nat :=
  os.countP fun o => o.event.id = id && o.answer = .accepted

/-- The rolled-back calls that offered an event. -/
def rolledBack (id : Uuid) (ended : List EndedCall) : Nat :=
  ended.countP fun x => !x.committed && (answerTo id x.offers).isSome

/-- After so many offers without success an event has failed. A limit below one is one. -/
def maxOffers (settings : Settings) : Int := max 1 settings.outboxMaxDispatchAttempts

/-- The status and the attempts of an event by the answers that were
committed, the last one first. -/
structure OutboxEvent.Accounts (settings : Settings) (e : OutboxEvent) (answers : List Publish) :
    Prop where
  attempts : e.attempts = answers.length
  pending : e.status = .pending → .accepted ∉ answers ∧ (answers.length : Int) < maxOffers settings
  published : e.status = .published →
    ∃ earlier, answers = .accepted :: earlier ∧ .accepted ∉ earlier ∧
      (earlier.length : Int) < maxOffers settings
  failed : e.status = .failed → .accepted ∉ answers ∧ (answers.length : Int) = maxOffers settings

variable {settings : Settings} {id : Uuid} {e : OutboxEvent} {s s' : Dispatching}

theorem accounts_new (pending : e.status = .pending) (unoffered : e.attempts = 0) :
    e.Accounts settings [] where
  attempts := unoffered
  pending _ := ⟨List.not_mem_nil, by simp [maxOffers]⟩
  published h := by rw [pending] at h; cases h
  failed h := by rw [pending] at h; cases h

/-- An offer adds its answer to the account. -/
theorem OutboxEvent.Accounts.offered {answers : List Publish} (h : e.Accounts settings answers)
    (pending : e.status = .pending) (now : Time) (answer : Publish) :
    (e.offered settings now answer).Accounts settings (answer :: answers) := by
  obtain ⟨none, few⟩ := h.pending pending
  cases answer with
  | accepted =>
    refine ⟨by simp [h.attempts], nofun, fun _ => ⟨answers, rfl, none, few⟩, nofun⟩
  | refused error =>
    have none' : Publish.accepted ∉ Publish.refused error :: answers := by simpa using none
    have attempts := h.attempts
    unfold maxOffers at few
    refine ⟨by simp [h.attempts], fun status => ⟨none', ?_⟩, fun status => ?_,
        fun status => ⟨none', ?_⟩⟩ <;>
      simp only [OutboxEvent.offered, pending] at status <;> split at status <;>
      simp only [reduceCtorEq, List.length_cons, maxOffers] at status ⊢ <;> omega

/-! ## The invariant -/

/-- What every step keeps: a selected row stays as it was selected, and the
accounts of all rows are right. -/
structure Dispatching.Keeps (settings : Settings) (s : Dispatching) : Prop where
  locks : s.locked.Nodup
  held : ∀ c ∈ s.calls, ∀ e ∈ c.events, e ∈ s.outbox ∧ e.isDue s.now
  known : ∀ x ∈ s.ended, ∀ o ∈ x.offers, ∃ e ∈ s.outbox, e.id = o.event.id ∧
    e.deliverAt = o.event.deliverAt
  single : ∀ x ∈ s.ended, (x.offers.map (·.event.id)).Nodup
  timely : ∀ o ∈ s.offers, ∀ at_, o.event.deliverAt = some at_ → at_ ≤ o.time
  accounts : ∀ e ∈ s.outbox, e.Accounts settings (verdicts e.id s.ended)

theorem answerTo_eq_none {os : List Offer} : answerTo id os = none ↔ ∀ o ∈ os, o.event.id ≠ id := by
  simp [answerTo]

theorem answerTo_of_mem {os : List Offer} {o : Offer} (nodup : (os.map (·.event.id)).Nodup)
    (h : o ∈ os) : answerTo o.event.id os = some o.answer := by
  induction os with
  | nil => cases h
  | cons x os ih =>
    rw [List.map_cons, List.nodup_cons] at nodup
    rcases List.mem_cons.1 h with rfl | later
    · simp [answerTo]
    · have other : x.event.id ≠ o.event.id := fun same => nodup.1 (same ▸ List.mem_map_of_mem later)
      rw [answerTo, List.find?_cons_of_neg (by simpa using other)]
      exact ih nodup.2 later

/-- An event no call has offered has no verdicts. -/
theorem verdicts_eq_nil {ended : List EndedCall}
    (h : ∀ x ∈ ended, ∀ o ∈ x.offers, o.event.id ≠ id) : verdicts id ended = [] := by
  simp only [verdicts, List.filterMap_eq_nil_iff]
  intro x hx
  rw [answerTo_eq_none.2 (h x hx)]
  split <;> rfl

namespace Dispatching

theorem keeps_initial (now : Time) : (initial now).Keeps settings where
  locks := List.nodup_nil
  held _ hc := absurd hc List.not_mem_nil
  known _ hx := absurd hx List.not_mem_nil
  single _ hx := absurd hx List.not_mem_nil
  timely _ ho := absurd ho List.not_mem_nil
  accounts e he := absurd he (Table.not_mem_empty e)

theorem mem_locked {s : Dispatching} {id : Uuid} :
    id ∈ s.locked ↔ ∃ c ∈ s.calls, ∃ e ∈ c.events, e.id = id := by
  simp only [locked, List.mem_map, List.mem_flatMap]
  tauto

theorem locked_append {l r : List DispatchCall} {c : DispatchCall} {s : Dispatching}
    (call : s.calls = l ++ c :: r) :
    s.locked.Perm (c.events.map OutboxEvent.id ++
      ((l ++ r).flatMap DispatchCall.events).map OutboxEvent.id) := by
  have parts : s.calls.Perm (c :: (l ++ r)) := call ▸ List.perm_middle
  have events := (parts.flatMap_right DispatchCall.events).map OutboxEvent.id
  simpa [locked, List.flatMap_cons] using events

/-- The rows of other calls are other rows. -/
theorem Keeps.disjoint (h : s.Keeps settings) {l r : List DispatchCall} {c : DispatchCall}
    (call : s.calls = l ++ c :: r) : (c.events.map OutboxEvent.id).Nodup ∧
      (((l ++ r).flatMap DispatchCall.events).map OutboxEvent.id).Nodup ∧
      ∀ e ∈ c.events, ∀ c' ∈ l ++ r, ∀ e' ∈ c'.events, e'.id ≠ e.id := by
  have nodup := (locked_append call).nodup_iff.1 h.locks
  obtain ⟨own, others, apart⟩ := List.nodup_append.1 nodup
  refine ⟨own, others, fun e he c' hc' e' he' same => ?_⟩
  exact apart e.id (List.mem_map_of_mem he) e'.id
    (List.mem_map_of_mem (List.mem_flatMap.2 ⟨c', hc', he'⟩)) same.symm

theorem Keeps.insert (h : s.Keeps settings) (new : s.outbox.get e.id = none)
    (pending : e.status = .pending) (unoffered : e.attempts = 0) :
    Keeps settings { s with outbox := s.outbox.put e } := by
  rw [Table.get_eq_none] at new
  have old : ∀ x ∈ s.outbox, x ∈ s.outbox.put e := fun x hx => Table.mem_put.2 (.inr ⟨hx, new x hx⟩)
  refine { h with
    held := fun c hc x hx => ?_, known := fun x hx o ho => ?_, accounts := fun x hx => ?_ }
  · obtain ⟨mem, due⟩ := h.held c hc x hx
    exact ⟨old x mem, due⟩
  · obtain ⟨y, hy, same⟩ := h.known x hx o ho
    exact ⟨y, old y hy, same⟩
  · rcases Table.mem_put.1 hx with rfl | ⟨mem, -⟩
    · rw [verdicts_eq_nil fun y hy o ho same => ?_]
      · exact accounts_new pending unoffered
      · obtain ⟨z, hz, id, -⟩ := h.known y hy o ho
        exact new z hz (id.trans same)
    · exact h.accounts x mem

theorem Keeps.select (h : s.Keeps settings) {limit : Int} {es : List OutboxEvent}
    (picks : Picks s.outbox s.now s.locked limit es) :
    Keeps settings { s with calls := ⟨es, []⟩ :: s.calls } := by
  refine { h with locks := ?_, held := fun c hc => ?_, timely := h.timely }
  · have apart : List.Disjoint (es.map OutboxEvent.id) s.locked := by
      intro id hid locked
      obtain ⟨e, he, rfl⟩ := List.mem_map.1 hid
      exact (picks.free e he).2.2 locked
    simpa [locked, DispatchCall.events] using (picks.nodup.append h.locks apart)
  · rcases List.mem_cons.1 hc with rfl | hc
    · intro e he
      obtain ⟨mem, due, -⟩ := picks.free e (by simpa [DispatchCall.events] using he)
      exact ⟨mem, due⟩
    · exact h.held c hc

theorem Keeps.publish (h : s.Keeps settings) {l r : List DispatchCall} {es : List OutboxEvent}
    {done : List Offer} (call : s.calls = l ++ ⟨e :: es, done⟩ :: r) (answer : Publish) :
    Keeps settings { s with calls := l ++ ⟨es, ⟨e, s.now, answer⟩ :: done⟩ :: r } := by
  have mem : (⟨e :: es, done⟩ : DispatchCall) ∈ s.calls := by simp [call]
  have same : (DispatchCall.events ⟨es, ⟨e, s.now, answer⟩ :: done⟩).Perm
      (DispatchCall.events ⟨e :: es, done⟩) := by
    simp [DispatchCall.events]
  have offered := h.held _ mem e (by simp [DispatchCall.events])
  refine { h with locks := ?_, held := fun c hc x hx => ?_, timely := fun o ho => ?_ }
  · have before := (locked_append call).nodup_iff.1 h.locks
    refine (locked_append (s := { s with calls := l ++ ⟨es, ⟨e, s.now, answer⟩ :: done⟩ :: r })
      rfl).nodup_iff.2 ?_
    exact ((same.map OutboxEvent.id).append_right _).nodup_iff.2 before
  · rcases List.mem_append.1 hc with left | right
    · exact h.held c (by simp [call, left]) x hx
    · rcases List.mem_cons.1 right with rfl | right
      · exact h.held _ mem x (same.mem_iff.1 hx)
      · exact h.held c (by simp [call, right]) x hx
  · by_cases new : o = ⟨e, s.now, answer⟩
    · subst new
      exact (OutboxEvent.isDue_iff.1 offered.2).2
    · refine h.timely o ?_
      simp only [offers, List.flatMap_append, List.flatMap_cons, List.mem_append, List.mem_cons,
        new, false_or, call] at ho ⊢
      exact ho

/-- What a commit leaves of the table: the offered rows with the answers, and all others. -/
theorem mem_committed (h : s.Keeps settings) {l r : List DispatchCall} {done : List Offer}
    (call : s.calls = l ++ ⟨[], done⟩ :: r) {x : OutboxEvent} :
    x ∈ s.outbox.putAll (done.map (Offer.row settings)) ↔
      (∃ o ∈ done, x = o.row settings) ∨ x ∈ s.outbox ∧ ∀ o ∈ done, o.event.id ≠ x.id := by
  obtain ⟨own, -, -⟩ := h.disjoint call
  have nodup : ((done.map (Offer.row settings)).map key).Nodup := by
    simpa [DispatchCall.events, Function.comp_def, Offer.row, Store.key] using own
  constructor
  · intro hx
    by_cases written : x ∈ done.map (Offer.row settings)
    · obtain ⟨o, ho, rfl⟩ := List.mem_map.1 written
      exact .inl ⟨o, ho, rfl⟩
    · obtain ⟨old, free⟩ := Table.kept_of_mem_putAll hx written
      exact .inr ⟨old, fun o ho same =>
        free _ (List.mem_map_of_mem ho) (by simpa [Offer.row, Store.key] using same)⟩
  · rintro (⟨o, ho, rfl⟩ | ⟨old, free⟩)
    · exact Table.mem_putAll_of_mem nodup (List.mem_map_of_mem ho)
    · refine Table.mem_putAll_of_free old fun y hy same => ?_
      obtain ⟨o, ho, rfl⟩ := List.mem_map.1 hy
      exact free o ho (by simpa [Offer.row, Store.key] using same)

theorem offers_end {l r : List DispatchCall} {c : DispatchCall} (call : s.calls = l ++ c :: r)
    (outbox : Table OutboxEvent) (committed : Bool) :
    (Dispatching.mk s.now outbox (l ++ r) (⟨committed, c.done⟩ :: s.ended)).offers.Perm
      s.offers := by
  simp only [offers, call, List.flatMap_append, List.flatMap_cons, List.append_assoc]
  refine .append_left _ ?_
  rw [← List.append_assoc, ← List.append_assoc]
  exact .append_right _ List.perm_append_comm

theorem Keeps.rollback (h : s.Keeps settings) {l r : List DispatchCall} {c : DispatchCall}
    (call : s.calls = l ++ c :: r) :
    Keeps settings { s with calls := l ++ r, ended := ⟨false, c.done⟩ :: s.ended } := by
  obtain ⟨own, others, -⟩ := h.disjoint call
  have mem : c ∈ s.calls := by simp [call]
  have single : (c.done.map (·.event.id)).Nodup := by
    refine own.sublist ?_
    simp [DispatchCall.events, Function.comp_def]
  refine ⟨others, fun c' hc' => h.held c' ?_, fun x hx o ho => ?_, fun x hx => ?_, fun o ho => ?_,
    fun e he => ?_⟩
  · rw [call]
    simp only [List.mem_append, List.mem_cons] at hc' ⊢
    tauto
  · rcases List.mem_cons.1 hx with rfl | hx
    · refine ⟨o.event, (h.held c mem o.event ?_).1, rfl, rfl⟩
      exact List.mem_append_right _ (List.mem_map_of_mem ho)
    · exact h.known x hx o ho
  · rcases List.mem_cons.1 hx with rfl | hx
    · exact single
    · exact h.single x hx
  · exact h.timely o ((offers_end call s.outbox false).mem_iff.1 ho)
  · exact h.accounts e he

theorem Keeps.commit (h : s.Keeps settings) {l r : List DispatchCall} {done : List Offer}
    (call : s.calls = l ++ ⟨[], done⟩ :: r) :
    Keeps settings { s with
      outbox := s.outbox.putAll (done.map (Offer.row settings)), calls := l ++ r, ended :=
        ⟨true, done⟩ :: s.ended } := by
  obtain ⟨own, others, apart⟩ := h.disjoint call
  have mem : (⟨[], done⟩ : DispatchCall) ∈ s.calls := by simp [call]
  have events : ∀ o ∈ done, o.event ∈ (⟨[], done⟩ : DispatchCall).events := fun o ho =>
    List.mem_append_right _ (List.mem_map_of_mem ho)
  have single : (done.map (·.event.id)).Nodup := by
    simpa [DispatchCall.events, Function.comp_def] using own
  -- An offered row is there with its answer, every other one as it was.
  have stays : ∀ x ∈ s.outbox, ∃ y ∈ s.outbox.putAll (done.map (Offer.row settings)),
      y.id = x.id ∧ y.deliverAt = x.deliverAt := by
    intro x hx
    by_cases offered : ∃ o ∈ done, o.event.id = x.id
    · obtain ⟨o, ho, same⟩ := offered
      obtain rfl : o.event = x := Table.eq_of_key (h.held _ mem _ (events o ho)).1 hx same
      exact ⟨o.row settings, (mem_committed h call).2 (.inl ⟨o, ho, rfl⟩), by simp [Offer.row]⟩
    · exact ⟨x, (mem_committed h call).2 (.inr ⟨hx, fun o ho same => offered ⟨o, ho, same⟩⟩), rfl,
        rfl⟩
  refine ⟨others, fun c hc x hx => ?_, fun x hx o ho => ?_, fun x hx => ?_, fun o ho => ?_,
    fun x hx => ?_⟩
  · have hc' : c ∈ s.calls := by
      rw [call]
      simp only [List.mem_append, List.mem_cons] at hc ⊢
      tauto
    obtain ⟨old, due⟩ := h.held c hc' x hx
    refine ⟨(mem_committed h call).2 (.inr ⟨old, fun o ho same => ?_⟩), due⟩
    exact apart o.event (events o ho) c hc x hx same.symm
  · rcases List.mem_cons.1 hx with rfl | hx
    · exact stays o.event (h.held _ mem _ (events o ho)).1
    · obtain ⟨y, hy, id, deliver⟩ := h.known x hx o ho
      obtain ⟨z, hz, id', deliver'⟩ := stays y hy
      exact ⟨z, hz, id'.trans id, deliver'.trans deliver⟩
  · rcases List.mem_cons.1 hx with rfl | hx
    · exact single
    · exact h.single x hx
  · exact h.timely o ((offers_end call _ true).mem_iff.1 ho)
  · rcases (mem_committed h call).1 hx with ⟨o, ho, rfl⟩ | ⟨old, free⟩
    · have before := h.accounts o.event (h.held _ mem _ (events o ho)).1
      have pending := (OutboxEvent.isDue_iff.1 (h.held _ mem _ (events o ho)).2).1
      have answer := answerTo_of_mem single ho
      simpa [verdicts, Offer.row, answer] using before.offered pending o.time o.answer
    · have unasked := answerTo_eq_none.2 free
      simpa [verdicts, unasked] using h.accounts x old

theorem Keeps.step (h : s.Keeps settings) (hs : Step settings s s') : s'.Keeps settings := by
  cases hs with
  | tick later =>
    refine { h with held := fun c hc e he => ?_ }
    obtain ⟨mem, due⟩ := h.held c hc e he
    exact ⟨mem, OutboxEvent.isDue_later due later⟩
  | insert new pending unoffered => exact h.insert new pending unoffered
  | select picks => exact h.select picks
  | publish call answer => exact h.publish call answer
  | commit call stored => exact h.commit call
  | rollback call => exact h.rollback call

theorem Reaches.keeps (h : Reaches settings s) : s.Keeps settings := by
  induction h with
  | start now => exact keeps_initial now
  | step _ hs ih => exact ih.step hs

/-- How often an event was offered. -/
def offersOf (s : Dispatching) (id : Uuid) : Nat := s.offers.countP (·.event.id = id)

/-- A row that is not pending is not locked, and stays as it is. -/
theorem Keeps.settled (h : s.Keeps settings) (hs : Step settings s s') (he : e ∈ s.outbox)
    (status : e.status ≠ .pending) : e ∈ s'.outbox ∧ s'.offersOf e.id = s.offersOf e.id := by
  have unlocked : ∀ c ∈ s.calls, ∀ x ∈ c.events, x.id ≠ e.id := by
    intro c hc x hx same
    obtain ⟨mem, due⟩ := h.held c hc x hx
    exact status (Table.eq_of_key mem he same ▸ (OutboxEvent.isDue_iff.1 due).1)
  cases hs with
  | tick | select => exact ⟨he, rfl⟩
  | insert new =>
    exact ⟨Table.mem_put.2 (.inr ⟨he, Table.get_eq_none.1 new e he⟩), rfl⟩
  | @publish l r x es done call answer =>
    have other : x.id ≠ e.id :=
      unlocked ⟨x :: es, done⟩ (by simp [call]) x (by simp [DispatchCall.events])
    refine ⟨he, ?_⟩
    simp [offersOf, offers, call, List.flatMap_append, List.flatMap_cons, other]
  | @commit l r done call stored =>
    refine ⟨(mem_committed h call).2 (.inr ⟨he, fun o ho => ?_⟩),
      (offers_end call _ true).countP_eq _⟩
    exact unlocked ⟨[], done⟩ (by simp [call]) o.event
      (List.mem_append_right _ (List.mem_map_of_mem ho))
  | rollback call => exact ⟨he, (offers_end call _ false).countP_eq _⟩

end Dispatching

/-! ## The accounts of a run -/

/-- The committed calls that offered an event. -/
def committedOffers (id : Uuid) (ended : List EndedCall) : Nat :=
  ended.countP fun x => x.committed && (answerTo id x.offers).isSome

theorem length_verdicts (ended : List EndedCall) :
    (verdicts id ended).length = committedOffers id ended := by
  induction ended with
  | nil => rfl
  | cons x ended ih =>
    cases hc : x.committed <;> cases ha : answerTo id x.offers <;>
      simp_all [verdicts, committedOffers]

theorem accepts_eq {os : List Offer} (nodup : (os.map (·.event.id)).Nodup) :
    accepts id os = if answerTo id os = some .accepted then 1 else 0 := by
  induction os with
  | nil => rfl
  | cons o os ih =>
    rw [List.map_cons, List.nodup_cons] at nodup
    by_cases same : o.event.id = id
    · have rest : accepts id os = 0 := by
        rw [accepts, List.countP_eq_zero]
        intro x hx
        have other : x.event.id ≠ id := fun h => nodup.1 (same ▸ h ▸ List.mem_map_of_mem hx)
        simp [other]
      unfold accepts at rest ⊢
      rw [List.countP_cons, rest]
      simp [answerTo, same]
    · have skip : answerTo id (o :: os) = answerTo id os := by simp [answerTo, same]
      have rest : accepts id (o :: os) = accepts id os := by simp [accepts, same]
      rw [skip, rest, ih nodup.2]

/-- Among the ended calls an acceptance is a verdict or was rolled back. -/
theorem accepts_ended {ended : List EndedCall}
    (single : ∀ x ∈ ended, (x.offers.map (·.event.id)).Nodup) :
    accepts id (ended.flatMap EndedCall.offers) ≤ rolledBack id ended +
      (verdicts id ended).count .accepted := by
  induction ended with
  | nil => exact Nat.zero_le _
  | cons x ended ih =>
    have ih := ih fun y hy => single y (List.mem_cons_of_mem x hy)
    have own := @accepts_eq id _ (single x (List.mem_cons_self ..))
    have split : accepts id ((x :: ended).flatMap EndedCall.offers) =
        accepts id x.offers + accepts id (ended.flatMap EndedCall.offers) := by
      simp [accepts, List.flatMap_cons, List.countP_append]
    rw [split, own]
    cases hc : x.committed with
    | true =>
      have rolled : rolledBack id (x :: ended) = rolledBack id ended := by simp [rolledBack, hc]
      rw [rolled]
      cases ha : answerTo id x.offers with
      | none => simpa [verdicts, hc, ha] using ih
      | some answer =>
        simp only [verdicts, List.filterMap_cons, hc, ha, if_true, List.count_cons, beq_iff_eq,
          Option.some.injEq] at ih ⊢
        omega
    | false =>
      have same : verdicts id (x :: ended) = verdicts id ended := by simp [verdicts, hc]
      rw [same]
      unfold rolledBack at ih ⊢
      rw [List.countP_cons]
      cases ha : answerTo id x.offers with
      | none => simpa [hc, ha] using ih
      | some answer =>
        simp only [hc, Bool.not_false, Option.isSome_some, Bool.and_self, if_true]
        split <;> omega

/-- The broker accepts an event at most once in the calls that go on. -/
theorem accepts_calls (cs : List DispatchCall) : accepts id (cs.flatMap DispatchCall.done) ≤
    ((cs.flatMap DispatchCall.events).map OutboxEvent.id).count id := by
  induction cs with
  | nil => exact Nat.zero_le _
  | cons c cs ih =>
    have own : accepts id c.done ≤ (c.events.map OutboxEvent.id).count id := by
      have some : accepts id c.done ≤ (c.done.map (·.event.id)).count id := by
        rw [accepts, List.count, List.countP_map]
        exact List.countP_mono_left fun o _ h => by simpa using (by simpa using h : _ ∧ _).1
      have part : (c.done.map (·.event.id)).Sublist (c.events.map OutboxEvent.id) := by
        simp [DispatchCall.events, Function.comp_def]
      exact some.trans (part.count_le id)
    have split : accepts id ((c :: cs).flatMap DispatchCall.done) =
        accepts id c.done + accepts id (cs.flatMap DispatchCall.done) := by
      simp [accepts, List.flatMap_cons, List.countP_append]
    rw [split, List.flatMap_cons, List.map_append, List.count_append]
    omega

/-- An event to be offered. -/
def refusedEvent : OutboxEvent where
  id := .ofNat 14
  merchantId := .ofNat 1
  aggregateType := "recovery_case"
  aggregateId := (Uuid.ofNat 12).str
  eventType := "recovery_case.eligible"
  payload := [("recovery_case_id", .str (Uuid.ofNat 12).str)]
  idempotencyKey := "recovery_case.eligible:" ++ (Uuid.ofNat 12).str
  status := .pending
  attempts := 0
  lastError := none
  createdAt := 0
  publishedAt := none
  deliverAt := none

namespace Dispatching

/-- What holds of the events, the calls and the broker in every run. -/
structure Accounting (settings : Settings) (s : Dispatching) : Prop where
  /-- A published event was accepted in the last committed call that offered it. -/
  published : ∀ e ∈ s.outbox, e.status = .published →
    ∃ later x earlier, s.ended = later ++ x :: earlier ∧
    x.committed ∧ answerTo e.id x.offers = some .accepted ∧
    ∀ y ∈ later, y.committed → answerTo e.id y.offers = none
  accepted : ∀ id, accepts id s.offers ≤ rolledBack id s.ended + 1
  attempts : ∀ e ∈ s.outbox, e.attempts = committedOffers e.id s.ended ∧
    e.attempts ≤ maxOffers settings
  failed : ∀ e ∈ s.outbox, e.status = .failed ↔
    (committedOffers e.id s.ended : Int) = maxOffers settings ∧
    ∀ x ∈ s.ended, x.committed → answerTo e.id x.offers ≠ some .accepted
  due : ∀ o ∈ s.offers, ∀ e ∈ s.outbox, e.id = o.event.id →
    ∀ at_, e.deliverAt = some at_ → at_ ≤ o.time
  settled : ∀ s', Relation.ReflTransGen (Step settings) s s' → ∀ e ∈ s.outbox, e.status ≠ .pending →
    e ∈ s'.outbox ∧ s'.offersOf e.id = s.offersOf e.id

theorem accepted_mem_verdicts {ended : List EndedCall} : .accepted ∈ verdicts id ended ↔
    ∃ x ∈ ended, x.committed ∧ answerTo id x.offers = some .accepted := by
  simp only [verdicts, List.mem_filterMap]
  refine exists_congr fun x => and_congr_right fun _ => ?_
  cases x.committed <;> simp

/-- The last committed offer gave the last verdict. -/
theorem exists_of_verdicts {ended : List EndedCall} {answer : Publish} {rest : List Publish}
    (h : verdicts id ended = answer :: rest) :
    ∃ later x earlier, ended = later ++ x :: earlier ∧ x.committed ∧
      answerTo id x.offers = some answer ∧ ∀ y ∈ later, y.committed →
        answerTo id y.offers = none := by
  induction ended with
  | nil => cases h
  | cons x ended ih =>
    cases ha : (if x.committed then answerTo id x.offers else none) with
    | none =>
      have h' : verdicts id ended = answer :: rest := by
        simpa only [verdicts, List.filterMap_cons, ha] using h
      obtain ⟨later, y, earlier, rfl, committed, accepted, silent⟩ := ih h'
      refine ⟨x :: later, y, earlier, rfl, committed, accepted, fun z hz => ?_⟩
      rcases List.mem_cons.1 hz with rfl | hz
      · intro committed
        simpa [committed] using ha
      · exact silent z hz
    | some a =>
      have first : a = answer := by
        simp only [verdicts, List.filterMap_cons, ha] at h
        exact (List.cons.inj h).1
      subst first
      refine ⟨[], x, ended, rfl, ?_, ?_, nofun⟩ <;> revert ha <;> cases x.committed <;> simp

theorem Keeps.accepted (h : s.Keeps settings) (id : Uuid) :
    accepts id s.offers ≤ rolledBack id s.ended + 1 := by
  have ended := @accepts_ended id _ h.single
  have running := @accepts_calls id s.calls
  have once : ((s.calls.flatMap DispatchCall.events).map OutboxEvent.id).count id ≤ 1 :=
    List.nodup_iff_count_le_one.1 h.locks id
  have split : accepts id s.offers =
      accepts id (s.calls.flatMap DispatchCall.done) +
        accepts id (s.ended.flatMap EndedCall.offers) := by
    simp [accepts, offers, List.countP_append]
  by_cases held : id ∈ s.locked
  · -- A locked event is pending, so no committed call was accepted.
    obtain ⟨c, hc, e, he, rfl⟩ := mem_locked.1 held
    obtain ⟨mem, due⟩ := h.held c hc e he
    have none := ((h.accounts e mem).pending (OutboxEvent.isDue_iff.1 due).1).1
    rw [List.count_eq_zero.2 none] at ended
    omega
  · have zero : ((s.calls.flatMap DispatchCall.events).map OutboxEvent.id).count id = 0 :=
      List.count_eq_zero.2 held
    have verdict : (verdicts id s.ended).count .accepted ≤ 1 := by
      by_cases known : ∃ e ∈ s.outbox, e.id = id
      · obtain ⟨e, he, rfl⟩ := known
        have account := h.accounts e he
        cases status : e.status with
        | pending => simp [List.count_eq_zero.2 (account.pending status).1]
        | failed => simp [List.count_eq_zero.2 (account.failed status).1]
        | published =>
          obtain ⟨earlier, eq, none, -⟩ := account.published status
          rw [eq, List.count_cons_self, List.count_eq_zero.2 none]
      · rw [verdicts_eq_nil fun x hx o ho same => ?_]
        · exact Nat.zero_le _
        · obtain ⟨e, he, id', -⟩ := h.known x hx o ho
          exact known ⟨e, he, id'.trans same⟩
    omega

theorem Keeps.failed (h : s.Keeps settings) (he : e ∈ s.outbox) : e.status = .failed ↔
    (committedOffers e.id s.ended : Int) = maxOffers settings ∧
      ∀ x ∈ s.ended, x.committed → answerTo e.id x.offers ≠ some .accepted := by
  have account := h.accounts e he
  have length := @length_verdicts e.id s.ended
  have refused : (∀ x ∈ s.ended, x.committed → answerTo e.id x.offers ≠ some .accepted) ↔
      .accepted ∉ verdicts e.id s.ended := by
    rw [accepted_mem_verdicts]
    push Not
    rfl
  rw [refused, ← length]
  cases status : e.status with
  | failed => simpa using (account.failed status).symm
  | pending =>
    have few := (account.pending status).2
    simp only [reduceCtorEq, false_iff, not_and]
    omega
  | published =>
    obtain ⟨earlier, eq, -⟩ := account.published status
    simp [eq]

theorem accounting (reaches : Reaches settings s) : s.Accounting settings := by
  have h := reaches.keeps
  refine ⟨fun e he status => ?_, h.accepted, fun e he => ?_, fun e he => h.failed he,
    fun o ho e he same => ?_, fun s' run => ?_⟩
  · obtain ⟨earlier, eq, -⟩ := (h.accounts e he).published status
    exact exists_of_verdicts eq
  · have account := h.accounts e he
    have length := @length_verdicts e.id s.ended
    refine ⟨by rw [account.attempts, length], ?_⟩
    rw [account.attempts]
    cases status : e.status with
    | pending => exact (account.pending status).2.le
    | failed => exact (account.failed status).2.le
    | published =>
      obtain ⟨earlier, eq, -, few⟩ := account.published status
      rw [eq, List.length_cons]
      omega
  · have deliver : e.deliverAt = o.event.deliverAt := by
      rcases List.mem_append.1 ho with active | past
      · obtain ⟨c, hc, ho⟩ := List.mem_flatMap.1 active
        have held := (h.held c hc o.event (List.mem_append_right _ (List.mem_map_of_mem ho))).1
        rw [Table.eq_of_key he held same]
      · obtain ⟨x, hx, ho⟩ := List.mem_flatMap.1 past
        obtain ⟨y, hy, id, deliver⟩ := h.known x hx o ho
        rw [Table.eq_of_key he hy (same.trans id.symm), deliver]
    rw [deliver]
    exact h.timely o ho
  · have keeps : s'.Keeps settings ∧ ∀ e ∈ s.outbox, e.status ≠ .pending →
        e ∈ s'.outbox ∧ s'.offersOf e.id = s.offersOf e.id := by
      induction run with
      | refl => exact ⟨h, fun e he _ => ⟨he, rfl⟩⟩
      | tail _ hs ih =>
        refine ⟨ih.1.step hs, fun e he status => ?_⟩
        obtain ⟨mem, offers⟩ := ih.2 e he status
        obtain ⟨mem', offers'⟩ := ih.1.settled hs mem status
        exact ⟨mem', offers'.trans offers⟩
    exact keeps.2

/-- A run in which the broker refuses the only event once. -/
def refusedOnce (settings : Settings) : Dispatching :=
  let offer : Offer := ⟨refusedEvent, 0, .refused "down"⟩
  ⟨0, (Table.empty.put refusedEvent).putAll [offer.row settings], [], [⟨true, [offer]⟩]⟩

theorem reaches_refusedOnce (limit : 1 ≤ settings.outboxDispatchBatchSize) :
    Reaches settings (refusedOnce settings) := by
  have due : refusedEvent.isDue 0 := by decide
  have new : (Table.empty (ρ := OutboxEvent)).get refusedEvent.id = none := rfl
  have inserted := Reaches.step (.start 0) (@Step.insert settings _ _ new rfl rfl)
  have picks : Picks (Table.empty.put refusedEvent) 0 [] (dispatchLimit settings none)
      [refusedEvent] := by
    refine ⟨fun e he => ?_,
      by simp, by simp, by simpa [dispatchLimit] using limit, fun e he _ _ other => ?_⟩
    · obtain rfl := List.mem_singleton.1 he
      exact ⟨Table.mem_put.2 (.inl rfl), due, by simp⟩
    · rcases Table.mem_put.1 he with rfl | ⟨old, -⟩
      · simp at other
      · exact absurd old (Table.not_mem_empty e)
  have selected := inserted.step (.select picks)
  have offered := selected.step (.publish (l := []) (r := []) rfl (.refused "down"))
  have stored : ∀ o ∈ [(⟨refusedEvent, 0, .refused "down"⟩ : Offer)],
      Db.updateError (.outbox (o.row settings)) = none := by
    intro o ho
    obtain rfl := List.mem_singleton.1 ho
    have same : Db.updateError (.outbox (Offer.row settings ⟨refusedEvent, 0, .refused "down"⟩)) =
        Db.updateError (.outbox (Offer.row {} ⟨refusedEvent, 0, .refused "down"⟩)) := rfl
    rw [same]
    decide +kernel
  exact offered.step (@Step.commit settings _ [] [] _ rfl stored)

theorem accounting_sample : ∃ s, Reaches {} s ∧ s.Accounting {} ∧ ∃ e ∈ s.outbox, e.attempts = 1 :=
  have reaches := @reaches_refusedOnce {} (by decide)
  ⟨_, reaches, accounting reaches, _, Table.mem_put.2 (.inl rfl), rfl⟩

/-- With a limit of no attempts an event is offered all the same. -/
theorem offered_beyond_limit : ∃ s, Reaches { outboxMaxDispatchAttempts := 0 } s ∧
    ∃ e ∈ s.outbox, ¬ e.attempts ≤
      ({ outboxMaxDispatchAttempts := 0 } : Settings).outboxMaxDispatchAttempts :=
  ⟨_, reaches_refusedOnce (by decide), _, Table.mem_put.2 (.inl rfl), by decide⟩

end Dispatching

end RecoverAI
