import RecoverAI.Store.Schedule

/-!
# Writes under way

A fact about the writes of a transaction and the committed rows that every statement keeps,
and every commit of a transaction with other locks, holds of all open transactions of a run
and of each of its commits.
-/
namespace RecoverAI.Store

variable {Stmt : Type} {Ans : Stmt → Type} {Db Write Lock ε P Env Call Reply : Type}
variable [Overlay Db Write] [Lockable Write Lock] [DecidableEq Lock] [Engine Stmt Ans Db Write]

/-- `K` starts true, and stays true under the statements of the transaction
and the commits of others. -/
structure Program.Tracks (pr : Program Stmt Ans Db ε P Env Call Reply)
    (K : Db → List Write → Prop) : Prop where
  nil : ∀ d, K d []
  exec : ∀ {d ws st}, K d ws → pr.allows (view d ws) st → K d (ws ++ (Engine.exec st (view d ws)).2)
  others : ∀ {d ws us}, K d ws → K d us → (∀ l ∈ locksOf ws, l ∉ locksOf us) → K (view d us) ws

/-- The fact holds of every thread, and held at every commit. -/
structure Tracked (d : Db) (K : Db → List Write → Prop) (s : Run Stmt Ans Db ε P Call Write) :
    Prop where
  threads : ∀ {pid : Nat} {t : Thread Stmt Ans ε P Write}, s.threads[pid]? = some t →
    K s.db t.writes
  log : Legal (fun log (e : Event P Call Write) => K (dbOf d log) e.writes) s.log

variable {pr : Program Stmt Ans Db ε P Env Call Reply} {d : Db} {K : Db → List Write → Prop}
  {Good : Log P Call Write → Event P Call Write → Prop} {Own : Nat → P → Log P Call Write → Prop}
  {Fails : Nat → P → ε → Log P Call Write → Prop} {s t : Run Stmt Ans Db ε P Call Write} {pid : Nat}

omit [Engine Stmt Ans Db Write] in
theorem Tracked.set (h : Tracked d K s) {u : Thread Stmt Ans ε P Write} (hu : K s.db u.writes) :
    Tracked d K (s.set pid u) where
  threads {i v} hv := by
    rcases Run.get_set hv with ⟨-, rfl⟩ | ⟨-, old⟩
    · exact hu
    · exact h.threads old
  log := h.log

omit [DecidableEq Lock] in
/-- A commit leaves the writes of the others as they were. -/
theorem Tracked.commit (h : Tracked d K s) (tracks : pr.Tracks K) (ok : Ok pr d Good Own Fails s)
    {p q : P} {abort : ε → P} {rest : Txn Stmt Ans ε P} {ws : List Write}
    (hp : s.threads[pid]? = some (.busy p abort rest ws)) :
    Tracked d K
      { db := view s.db ws
        log := .commit pid p ws q :: s.log
        threads := s.threads.set pid (.idle q) } where
  threads {i v} hv := by
    rcases Run.get_set (s := s) hv with ⟨-, rfl⟩ | ⟨other, old⟩
    · exact tracks.nil _
    · refine tracks.others (h.threads old) (h.threads hp) fun l hl held => ?_
      exact ok.apart old l hl (Run.mem_held.2 ⟨pid, _, Ne.symm other, hp, held⟩)
  log := ⟨h.log, show K (dbOf d s.log) ws from ok.db ▸ h.threads hp⟩

theorem Tracked.step (h : Tracked d K s) (tracks : pr.Tracks K) (ok : Ok pr d Good Own Fails s)
    {m : Move ε P Env Reply} (move : pr.step s pid m = some t) : Tracked d K t := by
  cases m with
  | spawn p =>
    obtain ⟨-, ht⟩ := Option.ite_none_right_eq_some.1 move
    cases ht
    refine ⟨fun {i v} hv => ?_, h.log⟩
    rcases Run.get_spawn hv with ⟨-, rfl⟩ | old
    · exact tracks.nil _
    · exact h.threads old
  | enter env =>
    simp only [Program.step] at move
    split at move
    · split at move
      · cases move
        exact h.set (tracks.nil _)
      all_goals cases move
    all_goals cases move
  | exec =>
    simp only [Program.step] at move
    split at move
    next p abort st next ws hp =>
      obtain ⟨cond, ht⟩ := Option.ite_none_right_eq_some.1 move
      cases ht
      rw [Bool.and_eq_true] at cond
      exact h.set (tracks.exec (h.threads hp) cond.1)
    all_goals cases move
  | finish =>
    simp only [Program.step] at move
    split at move
    next p abort q ws hp =>
      cases move
      exact h.commit tracks ok hp
    next =>
      cases move
      exact h.set (tracks.nil _)
    all_goals cases move
  | fault e =>
    simp only [Program.step] at move
    split at move
    · obtain ⟨-, ht⟩ := Option.ite_none_right_eq_some.1 move
      cases ht
      exact h.set (tracks.nil _)
    all_goals cases move
  | crash =>
    cases move
    exact h.set (tracks.nil _)
  | call r =>
    simp only [Program.step] at move
    split at move
    · split at move
      · cases move
        exact ⟨(h.set (u := .idle _) (tracks.nil _)).threads, h.log, tracks.nil _⟩
      all_goals cases move
    all_goals cases move

theorem Outline.tracked (o : Outline pr d Good Own Fails) (tracks : pr.Tracks K)
    (run : pr.Reaches d s) : Tracked d K s := by
  induction run with
  | refl => exact ⟨by simp [Run.initial], trivial⟩
  | step pid m before move ih => exact ih.step tracks (o.sound before) move

end RecoverAI.Store
