import Mathlib.Tactic.Common

/-!
# Transaction bodies

A body is a tree of statements: every statement is answered from the transaction's view of the
database, and the rest of the body depends on the answer. An `Engine` says how a statement is
answered and what it writes, an `Overlay` how writes are applied, and `Lockable` which locks they
take. Nothing here fixes the schema or the scheduling: `Txn.run` executes a body alone, and
`RecoverAI.Store.Schedule` interleaves bodies statement by statement.
-/
namespace RecoverAI.Store

inductive Txn (Stmt : Type) (Ans : Stmt → Type) (ε α : Type) : Type where
  | pure (a : α)
  | throw (e : ε)
  | sql (s : Stmt) (next : Ans s → Txn Stmt Ans ε α)

/-- How one write changes a database. -/
class Overlay (Db : Type) (Write : outParam Type) where
  apply : Db → Write → Db

/-- The locks a write takes until its transaction ends. -/
class Lockable (Write : Type) (Lock : outParam Type) where
  locks : Write → List Lock

export Overlay (apply)
export Lockable (locks)

/-- How a statement is answered on a view of the database, and what it writes. -/
class Engine (Stmt : Type) (Ans : outParam (Stmt → Type)) (Db Write : outParam Type) where
  exec : (s : Stmt) → Db → Ans s × List Write

export Engine (exec)

/-- A transaction sees the committed rows overlaid with its own writes. -/
def view {Db Write : Type} [Overlay Db Write] (d : Db) (ws : List Write) : Db :=
  ws.foldl apply d

section

variable {Db Write : Type} [Overlay Db Write]

@[simp] theorem view_nil (d : Db) : view d [] = d := rfl
theorem view_append (d : Db) (ws us : List Write) : view d (ws ++ us) = view (view d ws) us :=
  List.foldl_append

end

namespace Txn

variable {Stmt : Type} {Ans : Stmt → Type} {ε α β : Type}

protected def bind : Txn Stmt Ans ε α → (α → Txn Stmt Ans ε β) → Txn Stmt Ans ε β
  | .pure a, f => f a
  | .throw e, _ => .throw e
  | .sql s next, f => .sql s fun r => (next r).bind f

/-- Run `handler` where the body raises. -/
protected def tryCatch : Txn Stmt Ans ε α → (ε → Txn Stmt Ans ε α) → Txn Stmt Ans ε α
  | .pure a, _ => .pure a
  | .throw e, handler => handler e
  | .sql s next, handler => .sql s fun r => (next r).tryCatch handler

instance : Monad (Txn Stmt Ans ε) where
  pure := .pure
  bind := Txn.bind

instance : MonadExceptOf ε (Txn Stmt Ans ε) where
  throw := .throw
  tryCatch := Txn.tryCatch

@[simp] theorem pure_bind (a : α) (f : α → Txn Stmt Ans ε β) :
    (Txn.pure a >>= f) = f a := rfl
@[simp] theorem pure_bind' (a : α) (f : α → Txn Stmt Ans ε β) :
    ((Pure.pure a : Txn Stmt Ans ε α) >>= f) = f a := rfl
@[simp] theorem throw_bind (e : ε) (f : α → Txn Stmt Ans ε β) :
    ((Txn.throw e : Txn Stmt Ans ε α) >>= f) = .throw e := rfl
@[simp] theorem sql_bind (s : Stmt) (next : Ans s → Txn Stmt Ans ε α) (f : α → Txn Stmt Ans ε β) :
    (Txn.sql s next >>= f) = .sql s fun r => next r >>= f := rfl
@[simp] theorem monad_pure (a : α) : (Pure.pure a : Txn Stmt Ans ε α) = .pure a := rfl
@[simp] theorem monad_throw (e : ε) :
    (MonadExcept.throw e : Txn Stmt Ans ε α) = .throw e := rfl
@[simp] theorem monad_tryCatch (t : Txn Stmt Ans ε α) (handler : ε → Txn Stmt Ans ε α) :
    (MonadExcept.tryCatch t handler) = t.tryCatch handler := rfl
@[simp] theorem map_eq_bind (f : α → β) (t : Txn Stmt Ans ε α) :
    (f <$> t) = (t >>= fun a => .pure (f a)) := rfl

section Run

variable {Db Write : Type} [Overlay Db Write] [Engine Stmt Ans Db Write]

/-- Execute a body with no other transaction running; a raised error rolls everything back. -/
def run : Txn Stmt Ans ε α → Db → Except ε (α × Db)
  | .pure a, d => .ok (a, d)
  | .throw e, _ => .error e
  | .sql s next, d => (next (exec s d).1).run (view d (exec s d).2)

theorem run_bind (t : Txn Stmt Ans ε α) (f : α → Txn Stmt Ans ε β) (d : Db) :
    (t >>= f).run d = (t.run d).bind fun r => (f r.1).run r.2 := by
  induction t generalizing d with
  | pure | throw => rfl
  | sql s next ih => exact ih _ _

end Run

end Txn

end RecoverAI.Store
