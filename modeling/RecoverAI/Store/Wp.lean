import RecoverAI.Store.Txn

/-!
# Weakest preconditions under interference

`wp` executes a body symbolically. Between two statements other transactions may commit, so every
statement is answered in a state the setting's `rely` allows from the last one; the writes made so
far stay private and keep their locks. With no interference the rules specialize to the serial
semantics `Txn.run`, so one symbolic execution of a body serves both.
-/
namespace RecoverAI.Store

variable {Stmt : Type} {Ans : Stmt → Type} {Db Write Lock ε α β : Type}
variable [Overlay Db Write] [Lockable Write Lock]

def locksOf (ws : List Write) : List Lock := ws.flatMap locks

theorem mem_locksOf {ws : List Write} {l : Lock} : l ∈ locksOf ws ↔ ∃ w ∈ ws, l ∈ locks w := by
  simp [locksOf]

@[simp] theorem locksOf_append (ws us : List Write) :
    locksOf (ws ++ us) = locksOf ws ++ locksOf us := List.flatMap_append

theorem locksOf_subset {ws us : List Write} (h : ws ⊆ us) : locksOf ws ⊆ locksOf us :=
  fun _ hl => let ⟨w, hw, hl⟩ := mem_locksOf.1 hl; mem_locksOf.2 ⟨w, h hw, hl⟩

/-- A fact about the database that only a write holding `l` can falsify. -/
def Protects (l : Lock) (F : Db → Prop) : Prop := ∀ d (w : Write), l ∉ locks w → F d → F (apply d w)

theorem Protects.view {l : Lock} {F : Db → Prop} (h : Protects l F) {ws : List Write}
    (free : l ∉ locksOf ws) {d : Db} (hd : F d) : F (view d ws) := by
  induction ws generalizing d with
  | nil => exact hd
  | cons w ws ih =>
    rw [locksOf, List.flatMap_cons, List.mem_append, not_or] at free
    exact ih free.2 (h d w free.1 hd)

/-- Where a transaction runs. `rely ws` says what others may do while the transaction holds
the writes `ws`, and `allows` restricts the runs considered: a statement is executed only
on views that it allows. -/
structure Setting (Stmt Db Write : Type) {Lock : Type} [Overlay Db Write]
    [Lockable Write Lock] where
  State : Type
  db : State → Db
  rely : List Write → State → State → Prop
  allows : Db → Stmt → Prop
  rely_refl : ∀ ws s, rely ws s s
  rely_trans : ∀ {ws s t u}, rely ws s t → rely ws t u → rely ws s u
  rely_anti : ∀ {ws us s t}, ws ⊆ us → rely us s t → rely ws s t
  protect : ∀ {ws s t l} {F : Db → Prop}, rely ws s t → Protects l F → l ∈ locksOf ws →
    F (db s) → F (db t)

namespace Setting

variable [Engine Stmt Ans Db Write]

/-- What a transaction that holds `ws` sees in `s`. -/
def sees (C : Setting Stmt Db Write) (ws : List Write) (s : C.State) : Db := view (C.db s) ws

def wp (C : Setting Stmt Db Write) : Txn Stmt Ans ε α → (α → List Write → C.State → Prop) →
    (ε → List Write → C.State → Prop) → List Write → C.State → Prop
  | .pure a, Q, _, ws, s => Q a ws s
  | .throw e, _, X, ws, s => X e ws s
  | .sql st next, Q, X, ws, s => ∀ t, C.rely ws s t → C.allows (C.sees ws t) st →
      C.wp (next (exec st (C.sees ws t)).1) Q X (ws ++ (exec st (C.sees ws t)).2) t

variable {C : Setting Stmt Db Write} {Q : α → List Write → C.State → Prop}
  {X : ε → List Write → C.State → Prop} {ws : List Write} {s : C.State}

@[simp] theorem wp_pure (a : α) : C.wp (.pure a) Q X ws s ↔ Q a ws s := Iff.rfl
@[simp] theorem wp_throw (e : ε) : C.wp (.throw e) Q X ws s ↔ X e ws s := Iff.rfl
theorem wp_sql (st : Stmt) (next : Ans st → Txn Stmt Ans ε α) :
    C.wp (.sql st next) Q X ws s ↔ ∀ t, C.rely ws s t → C.allows (C.sees ws t) st →
      C.wp (next (exec st (C.sees ws t)).1) Q X (ws ++ (exec st (C.sees ws t)).2) t := Iff.rfl

theorem wp_bind (t : Txn Stmt Ans ε β) (f : β → Txn Stmt Ans ε α) :
    C.wp (t >>= f) Q X ws s ↔ C.wp t (fun b => C.wp (f b) Q X) X ws s := by
  induction t generalizing ws s with
  | pure | throw => exact Iff.rfl
  | sql st next ih => simp only [Txn.sql_bind, wp_sql, ih]

theorem wp_tryCatch (t : Txn Stmt Ans ε α) (handler : ε → Txn Stmt Ans ε α) :
    C.wp (t.tryCatch handler) Q X ws s ↔ C.wp t Q (fun e => C.wp (handler e) Q X) ws s := by
  induction t generalizing ws s with
  | pure | throw => exact Iff.rfl
  | sql st next ih => simp only [Txn.tryCatch, wp_sql, ih]

/-- The rule of consequence. -/
theorem wp_mono {Q' : α → List Write → C.State → Prop} {X' : ε → List Write → C.State → Prop}
    {t : Txn Stmt Ans ε α} (h : C.wp t Q X ws s) (hQ : ∀ a us u, Q a us u → Q' a us u)
    (hX : ∀ e us u, X e us u → X' e us u) : C.wp t Q' X' ws s := by
  induction t generalizing ws s with
  | pure a => exact hQ _ _ _ h
  | throw e => exact hX _ _ _ h
  | sql st next ih => exact fun u hu ha => ih _ (h u hu ha)

/-- A postcondition may assume that the body went on from where it started. -/
theorem wp_since {t : Txn Stmt Ans ε α}
    (h : C.wp t (fun a us u => ws ⊆ us → C.rely ws s u → Q a us u)
      (fun e us u => ws ⊆ us → C.rely ws s u → X e us u) ws s) : C.wp t Q X ws s := by
  have since : ∀ (t : Txn Stmt Ans ε α) ws' s', ws ⊆ ws' → C.rely ws s s' →
      C.wp t (fun a us u => ws ⊆ us → C.rely ws s u → Q a us u)
        (fun e us u => ws ⊆ us → C.rely ws s u → X e us u) ws' s' → C.wp t Q X ws' s' := by
    intro t
    induction t with
    | pure | throw => exact fun ws' s' sub hs h => h sub hs
    | sql st next ih =>
      intro ws' s' sub hs h u hu ha
      exact ih _ _ u (List.subset_append_of_subset_left _ sub)
        (C.rely_trans hs (C.rely_anti sub hu)) (h u hu ha)
  exact since t ws s (List.Subset.refl ws) (C.rely_refl _ _) h

/-- `Q` now, and still after whatever the others do next. -/
def lasting {γ : Type} (C : Setting Stmt Db Write) (Q : γ → List Write → C.State → Prop) (a : γ)
    (ws : List Write) (s : C.State) : Prop := ∀ t, C.rely ws s t → Q a ws t

theorem lasting.now {γ : Type} {Q : γ → List Write → C.State → Prop} {a : γ}
    (h : C.lasting Q a ws s) : Q a ws s := h s (C.rely_refl _ _)

/-- Interference before the next statement keeps a precondition with lasting postconditions. -/
theorem wp_rely {t : Txn Stmt Ans ε α} {u : C.State} (h : C.wp t (C.lasting Q) (C.lasting X) ws s)
    (hu : C.rely ws s u) : C.wp t (C.lasting Q) (C.lasting X) ws u := by
  cases t with
  | pure a => exact fun v hv => h v (C.rely_trans hu hv)
  | throw e => exact fun v hv => h v (C.rely_trans hu hv)
  | sql st next => exact fun v hv ha => h v (C.rely_trans hu hv) ha

end Setting

/-! ## No interference -/

variable [Engine Stmt Ans Db Write]

/-- The setting of a transaction that runs alone. -/
def Setting.serial (Stmt Db Write : Type) {Lock : Type} [Overlay Db Write] [Lockable Write Lock] :
    Setting Stmt Db Write where
  State := Db
  db := id
  rely _ s t := s = t
  allows _ _ := True
  rely_refl _ _ := rfl
  rely_trans := Eq.trans
  rely_anti _ h := h
  protect h _ _ hF := h ▸ hF

/-- What the serial setting proves of a body holds of its execution. -/
theorem Txn.run_of_wp {Q : α → List Write → Db → Prop} {X : ε → List Write → Db → Prop}
    {t : Txn Stmt Ans ε α} {d : Db} (ws : List Write)
    (h : (Setting.serial Stmt Db Write).wp t Q X ws d) :
    match t.run (view d ws) with
    | .ok (a, d') => ∃ us, d' = view d us ∧ Q a us d
    | .error e => ∃ us, X e us d := by
  induction t generalizing ws with
  | pure a => exact ⟨ws, rfl, h⟩
  | throw e => exact ⟨ws, h⟩
  | sql st next ih =>
    have step := ih _ (ws ++ (exec st (view d ws)).2) (h d rfl trivial)
    rwa [view_append] at step

theorem Txn.run_ok {Q : α → List Write → Db → Prop} {X : ε → List Write → Db → Prop}
    {t : Txn Stmt Ans ε α} {d d' : Db} {a : α}
    (h : (Setting.serial Stmt Db Write).wp t Q X [] d) (hr : t.run d = .ok (a, d')) :
    ∃ ws, d' = view d ws ∧ Q a ws d := by
  have := Txn.run_of_wp [] h
  rwa [view_nil, hr] at this

end RecoverAI.Store
