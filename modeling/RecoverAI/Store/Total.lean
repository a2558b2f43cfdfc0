import RecoverAI.Store.Wp

/-!
# Total correctness of a body that runs alone

`Txn.Succeeds` asks that a body returns and what holds then. Its rules are equivalences, so a
symbolic execution of a body ends in the exact condition under which nothing is raised.
-/
namespace RecoverAI.Store.Txn

variable {Stmt : Type} {Ans : Stmt → Type} {Db Write ε α β : Type} [Overlay Db Write]
  [Engine Stmt Ans Db Write]

/-- The body returns, and `Q` holds of the value it returns and the database it leaves. -/
def Succeeds (t : Txn Stmt Ans ε α) (Q : α → Db → Prop) (d : Db) : Prop :=
  ∃ a d', t.run d = .ok (a, d') ∧ Q a d'

variable {Q Q' : α → Db → Prop} {d : Db}

theorem succeeds_of_run_ok {t : Txn Stmt Ans ε α} {a : α} {d' : Db} (run : t.run d = .ok (a, d')) :
    t.Succeeds Q d ↔ Q a d' := by
  constructor
  · rintro ⟨b, e, run', holds⟩
    cases run.symm.trans run'
    exact holds
  · exact fun holds => ⟨a, d', run, holds⟩

theorem not_succeeds_of_run_error {t : Txn Stmt Ans ε α} {e : ε} (run : t.run d = .error e) :
    ¬ t.Succeeds Q d := by
  rintro ⟨a, d', run', -⟩
  cases run.symm.trans run'

@[simp] theorem succeeds_pure (a : α) : (Txn.pure a : Txn Stmt Ans ε α).Succeeds Q d ↔ Q a d :=
  succeeds_of_run_ok rfl

@[simp] theorem succeeds_throw (e : ε) : ¬ (Txn.throw e : Txn Stmt Ans ε α).Succeeds Q d :=
  not_succeeds_of_run_error rfl

theorem succeeds_sql (s : Stmt) (next : Ans s → Txn Stmt Ans ε α) :
    (Txn.sql s next).Succeeds Q d ↔ (next (exec s d).1).Succeeds Q (view d (exec s d).2) := Iff.rfl

theorem succeeds_bind (t : Txn Stmt Ans ε β) (f : β → Txn Stmt Ans ε α) :
    (t >>= f).Succeeds Q d ↔ t.Succeeds (fun b => (f b).Succeeds Q) d := by
  induction t generalizing d with
  | pure b => simp
  | throw e => simp
  | sql s next ih => exact ih _

theorem succeeds_map (t : Txn Stmt Ans ε β) (f : β → α) :
    (t >>= fun b => .pure (f b)).Succeeds Q d ↔ t.Succeeds (fun b => Q (f b)) d := by
  rw [succeeds_bind]
  exact ⟨fun ⟨b, d', run, holds⟩ => ⟨b, d', run, (succeeds_pure _).1 holds⟩,
    fun ⟨b, d', run, holds⟩ => ⟨b, d', run, (succeeds_pure _).2 holds⟩⟩

theorem Succeeds.mono {t : Txn Stmt Ans ε α} (h : t.Succeeds Q d) (sub : ∀ a d', Q a d' → Q' a d') :
    t.Succeeds Q' d :=
  let ⟨a, d', run, holds⟩ := h
  ⟨a, d', run, sub a d' holds⟩

end RecoverAI.Store.Txn
