import RecoverAI.Store.Wp

/-!
# Interleaved transactions

Processes run transaction bodies statement by statement over one committed database. A statement
whose writes need a lock that another open transaction holds waits. A commit applies the
transaction's writes and appends an event to the log; a raised error, a fault or a crash drops them.

`Outline` is the proof rule: it asks, for every control state, what a commit may do (`Good`) and
what the process knows (`Own`), and `Outline.sound` concludes that the log of every run is legal.
-/
namespace RecoverAI.Store

/-- What a process does next. -/
inductive Act (Stmt : Type) (Ans : Stmt → Type) (ε P Env Call Reply : Type) where
  | stop
  | txn (body : Env → Txn Stmt Ans ε P) (abort : ε → P)
  | call (c : Call) (resume : Reply → P)

/-- The code of the processes, which of them may be started, and the
statements and faults considered. -/
structure Program (Stmt : Type) (Ans : Stmt → Type) (Db ε P Env Call Reply : Type) where
  act : P → Act Stmt Ans ε P Env Call Reply
  starts : P → Bool
  faults : ε → Bool
  allows : Db → Stmt → Bool

inductive Event (P Call Write : Type) where
  | commit (pid : Nat) (p : P) (ws : List Write) (next : P)
  | call (pid : Nat) (c : Call)

namespace Event

variable {P Call Write : Type}

def pid : Event P Call Write → Nat
  | .commit pid .. => pid
  | .call pid _ => pid

def writes : Event P Call Write → List Write
  | .commit _ _ ws _ => ws
  | .call .. => []

end Event

/-- The events of a run, the newest first. -/
abbrev Log (P Call Write : Type) := List (Event P Call Write)

inductive Thread (Stmt : Type) (Ans : Stmt → Type) (ε P Write : Type) where
  | dead
  | idle (p : P)
  | busy (p : P) (abort : ε → P) (rest : Txn Stmt Ans ε P) (ws : List Write)

def Thread.writes {Stmt : Type} {Ans : Stmt → Type} {ε P Write : Type} :
    Thread Stmt Ans ε P Write → List Write
  | .busy _ _ _ ws => ws
  | _ => []

inductive Move (ε P Env Reply : Type) where
  | spawn (p : P)
  | enter (env : Env)
  | exec
  | finish
  | fault (e : ε)
  | crash
  | call (r : Reply)

structure Run (Stmt : Type) (Ans : Stmt → Type) (Db ε P Call Write : Type) where
  db : Db
  log : Log P Call Write
  threads : List (Thread Stmt Ans ε P Write)

variable {Stmt : Type} {Ans : Stmt → Type} {Db Write Lock ε P Env Call Reply : Type}

namespace Run

def initial (d : Db) : Run Stmt Ans Db ε P Call Write := ⟨d, [], []⟩

def set (s : Run Stmt Ans Db ε P Call Write) (pid : Nat) (t : Thread Stmt Ans ε P Write) :
    Run Stmt Ans Db ε P Call Write := { s with threads := s.threads.set pid t }

theorem get_set {s : Run Stmt Ans Db ε P Call Write} {pid i : Nat}
    {t u : Thread Stmt Ans ε P Write} (h : (s.set pid u).threads[i]? = some t) :
    i = pid ∧ t = u ∨ i ≠ pid ∧ s.threads[i]? = some t := by
  rw [set, List.getElem?_set] at h
  grind

theorem get_spawn {s : Run Stmt Ans Db ε P Call Write} {i : Nat} {t u : Thread Stmt Ans ε P Write}
    (h : (s.threads ++ [u])[i]? = some t) :
    i = s.threads.length ∧ t = u ∨ s.threads[i]? = some t := by
  rw [List.getElem?_append] at h
  grind

variable [Lockable Write Lock]

/-- The locks held by the open transactions of the other processes. -/
def held (s : Run Stmt Ans Db ε P Call Write) (pid : Nat) : List Lock :=
  (s.threads.eraseIdx pid).flatMap fun t => locksOf t.writes

theorem mem_held {s : Run Stmt Ans Db ε P Call Write} {pid : Nat} {l : Lock} :
    l ∈ s.held pid ↔ ∃ i t, i ≠ pid ∧ s.threads[i]? = some t ∧ l ∈ locksOf t.writes := by
  simp only [held, List.mem_flatMap, List.mem_eraseIdx_iff_getElem?]
  exact ⟨fun ⟨t, ⟨i, hi, ht⟩, hl⟩ => ⟨i, t, hi, ht, hl⟩,
    fun ⟨i, t, hi, ht, hl⟩ => ⟨t, ⟨i, hi, ht⟩, hl⟩⟩

end Run

namespace Program

variable [Overlay Db Write] [Lockable Write Lock] [DecidableEq Lock] [Engine Stmt Ans Db Write]
variable (pr : Program Stmt Ans Db ε P Env Call Reply)

def step (s : Run Stmt Ans Db ε P Call Write) (pid : Nat) :
    Move ε P Env Reply → Option (Run Stmt Ans Db ε P Call Write)
  | .spawn p => if pr.starts p then some { s with threads := s.threads ++ [.idle p] } else none
  | .enter env =>
    match s.threads[pid]? with
    | some (.idle p) =>
      match pr.act p with
      | .txn body abort => some (s.set pid (.busy p abort (body env) []))
      | _ => none
    | _ => none
  | .exec =>
    match s.threads[pid]? with
    | some (.busy p abort (.sql st next) ws) =>
      let seen := view s.db ws
      let (answer, us) := exec st seen
      if pr.allows seen st && (locksOf us).all (· ∉ s.held pid) then
        some (s.set pid (.busy p abort (next answer) (ws ++ us)))
      else none
    | _ => none
  | .finish =>
    match s.threads[pid]? with
    | some (.busy p _ (.pure q) ws) =>
      some { db := view s.db ws, log := .commit pid p ws q :: s.log,
             threads := s.threads.set pid (.idle q) }
    | some (.busy _ abort (.throw e) _) => some (s.set pid (.idle (abort e)))
    | _ => none
  | .fault e =>
    match s.threads[pid]? with
    | some (.busy _ abort _ _) => if pr.faults e then some (s.set pid (.idle (abort e))) else none
    | _ => none
  | .crash => some (s.set pid .dead)
  | .call r =>
    match s.threads[pid]? with
    | some (.idle p) =>
      match pr.act p with
      | .call c resume =>
        some { s with log := .call pid c :: s.log, threads := s.threads.set pid (.idle (resume r)) }
      | _ => none
    | _ => none

inductive Reaches (d : Db) : Run Stmt Ans Db ε P Call Write → Prop where
  | refl : Reaches d (.initial d)
  | step {s t} (pid : Nat) (m : Move ε P Env Reply) (before : Reaches d s)
      (move : pr.step s pid m = some t) : Reaches d t

/-- Execute a given list of moves. -/
def moves (s : Run Stmt Ans Db ε P Call Write) :
    List (Nat × Move ε P Env Reply) → Option (Run Stmt Ans Db ε P Call Write)
  | [] => some s
  | (pid, m) :: ms => (pr.step s pid m).bind fun t => moves t ms

variable {pr} in
theorem Reaches.moves {d : Db} {s t : Run Stmt Ans Db ε P Call Write} (h : pr.Reaches d s)
    {ms : List (Nat × Move ε P Env Reply)} (run : pr.moves s ms = some t) : pr.Reaches d t := by
  induction ms generalizing s with
  | nil => cases run; exact h
  | cons m ms ih =>
    obtain ⟨u, hu, run⟩ := Option.bind_eq_some_iff.1 run
    exact ih (h.step m.1 m.2 hu) run

variable {pr}

/-- What a program does is done by every program that allows the same statements and more. -/
theorem step_of_allows {allows : Db → Stmt → Bool} (more : ∀ v st, pr.allows v st → allows v st)
    {s t : Run Stmt Ans Db ε P Call Write} {pid : Nat} {m : Move ε P Env Reply}
    (move : pr.step s pid m = some t) : { pr with allows := allows }.step s pid m = some t := by
  cases m with
  | exec =>
    simp only [step] at move ⊢
    split at move
    next p abort st next ws busy =>
      split at move
      next granted =>
        rw [Bool.and_eq_true] at granted
        rw [← move]
        exact if_pos (Bool.and_eq_true_iff.2 ⟨more _ _ granted.1, granted.2⟩)
      next => cases move
    next => cases move
  | spawn | enter | finish | fault | crash | call => exact move

theorem moves_of_allows {allows : Db → Stmt → Bool} (more : ∀ v st, pr.allows v st → allows v st)
    {s t : Run Stmt Ans Db ε P Call Write} {ms : List (Nat × Move ε P Env Reply)}
    (run : pr.moves s ms = some t) : { pr with allows := allows }.moves s ms = some t := by
  induction ms generalizing s with
  | nil => exact run
  | cons m ms ih =>
    obtain ⟨u, hu, run⟩ := Option.bind_eq_some_iff.1 run
    exact Option.bind_eq_some_iff.2 ⟨u, step_of_allows more hu, ih run⟩

/-- A move appends at most one event to the log. -/
theorem step_log {s t : Run Stmt Ans Db ε P Call Write} {pid : Nat} {m : Move ε P Env Reply}
    (move : pr.step s pid m = some t) : s.log <:+ t.log := by
  cases m with
  | spawn p =>
    simp only [step] at move
    split at move
    · cases move
      exact List.suffix_refl _
    · cases move
  | enter env =>
    simp only [step] at move
    split at move
    · split at move
      · cases move
        exact List.suffix_refl _
      · cases move
    · cases move
  | exec =>
    simp only [step] at move
    split at move
    · split at move
      · cases move
        exact List.suffix_refl _
      · cases move
    · cases move
  | finish =>
    simp only [step] at move
    split at move
    · cases move
      exact List.suffix_cons _ _
    · cases move
      exact List.suffix_refl _
    · cases move
  | fault e =>
    simp only [step] at move
    split at move
    · split at move
      · cases move
        exact List.suffix_refl _
      · cases move
    · cases move
  | crash =>
    cases move
    exact List.suffix_refl _
  | call r =>
    simp only [step] at move
    split at move
    · split at move
      · cases move
        exact List.suffix_cons _ _
      · cases move
    · cases move

theorem moves_log {s t : Run Stmt Ans Db ε P Call Write} {ms : List (Nat × Move ε P Env Reply)}
    (run : pr.moves s ms = some t) : s.log <:+ t.log := by
  induction ms generalizing s with
  | nil => cases run; exact List.suffix_refl _
  | cons m ms ih =>
    obtain ⟨u, hu, run⟩ := Option.bind_eq_some_iff.1 run
    exact (step_log hu).trans (ih run)

end Program

/-! ## Legal logs -/

section Legal

variable [Overlay Db Write] [Lockable Write Lock]
variable (d : Db) (Good : Log P Call Write → Event P Call Write → Prop)

/-- The committed database after a log. -/
def dbOf : Log P Call Write → Db
  | [] => d
  | e :: log => view (dbOf log) e.writes

/-- Every event was good when it happened. -/
def Legal : Log P Call Write → Prop
  | [] => True
  | e :: log => Legal log ∧ Good log e

/-- Events of other processes, in a log in which this process holds the locks of `ws`. -/
inductive Others (pid : Nat) (ws : List Write) : Log P Call Write → Log P Call Write → Prop where
  | refl (log) : Others pid ws log log
  | step {log log'} (before : Others pid ws log log') (e : Event P Call Write)
      (other : e.pid ≠ pid) (free : ∀ l ∈ locksOf ws, l ∉ locksOf e.writes) (good : Good log' e) :
      Others pid ws log (e :: log')

variable {d Good} {pid : Nat} {ws us : List Write} {log log' log'' : Log P Call Write}

theorem Others.trans (h : Others Good pid ws log log') (h' : Others Good pid ws log' log'') :
    Others Good pid ws log log'' := by
  induction h' with
  | refl => exact h
  | step _ e other free good ih => exact .step ih e other free good

theorem Others.anti (sub : ws ⊆ us) (h : Others Good pid us log log') :
    Others Good pid ws log log' := by
  induction h with
  | refl => exact .refl _
  | step _ e other free good ih =>
    exact .step ih e other (fun l hl => free l (locksOf_subset sub hl)) good

theorem Others.legal (h : Others Good pid ws log log') (legal : Legal Good log) :
    Legal Good log' := by
  induction h with
  | refl => exact legal
  | step _ _ _ _ good ih => exact ⟨ih, good⟩

theorem Others.protect {l : Lock} {F : Db → Prop} (h : Others Good pid ws log log')
    (hF : Protects l F) (hl : l ∈ locksOf ws) (holds : F (dbOf d log)) : F (dbOf d log') := by
  induction h with
  | refl => exact holds
  | step _ e _ free _ ih => exact hF.view (free l hl) ih

theorem Legal.suffix (legal : Legal Good log') (h : log <:+ log') : Legal Good log := by
  obtain ⟨before, rfl⟩ := h
  induction before with
  | nil => exact legal
  | cons e before ih => exact ih legal.1

theorem Others.suffix (h : Others Good pid ws log log') : log <:+ log' := by
  induction h with
  | refl => exact List.suffix_refl _
  | step _ e _ _ _ ih => exact ih.trans (List.suffix_cons e _)

/-- The setting of process `pid` among processes that only commit good events. -/
def Setting.among {Stmt : Type} (d : Db) (Good : Log P Call Write → Event P Call Write → Prop)
    (allows : Db → Stmt → Prop) (pid : Nat) : Setting Stmt Db Write where
  State := Log P Call Write
  db := dbOf d
  rely := Others Good pid
  allows := allows
  rely_refl _ _ := .refl _
  rely_trans := Others.trans
  rely_anti := Others.anti
  protect := Others.protect

end Legal

/-! ## Proof outlines -/

section Outline

variable [Overlay Db Write] [Lockable Write Lock] [Engine Stmt Ans Db Write]
variable (pr : Program Stmt Ans Db ε P Env Call Reply) (d : Db)
  (Good : Log P Call Write → Event P Call Write → Prop) (Own : Nat → P → Log P Call Write → Prop)
  (Fails : Nat → P → ε → Log P Call Write → Prop)

/-- The setting process `pid` runs in. -/
abbrev Program.among (pid : Nat) : Setting Stmt Db Write :=
  Setting.among d Good (fun v st => pr.allows v st) pid

/-- The rest of a transaction that control state `p` opened ends well. -/
def Ends (pid : Nat) (p : P) (abort : ε → P) (rest : Txn Stmt Ans ε P) (ws : List Write)
    (log : Log P Call Write) : Prop :=
  (pr.among d Good pid).wp rest
    ((pr.among d Good pid).lasting fun q us t =>
      Good t (.commit pid p us q) ∧ Own pid q (.commit pid p us q :: t))
    ((pr.among d Good pid).lasting fun e _ t => Fails pid p e t ∧ Own pid (abort e) t) ws log

/-- What is to be proved of each control state. `Good` says what a commit or a call may be, `Own`
what a process that is in a control state knows of the log, `Fails` what is known when the
transaction of a control state raises. -/
structure Outline : Prop where
  start : ∀ {pid p log}, Legal Good log → pr.starts p → (∀ e ∈ log, e.pid ≠ pid) → Own pid p log
  stable : ∀ {pid p log e}, Legal Good log → Own pid p log → e.pid ≠ pid → Good log e →
    Own pid p (e :: log)
  txn : ∀ {pid p body abort log} env, Legal Good log → Own pid p log →
    pr.act p = .txn body abort → Ends pr d Good Own Fails pid p abort (body env) [] log
  fault : ∀ {pid p body abort e log}, Legal Good log → Own pid p log →
    pr.act p = .txn body abort → pr.faults e → Own pid (abort e) log
  call : ∀ {pid p c resume log} r, Legal Good log → Own pid p log → pr.act p = .call c resume →
    Good log (.call pid c) ∧ Own pid (resume r) (.call pid c :: log)

/-- What the outline keeps true of one thread. -/
def ThreadOk (pid : Nat) (log : Log P Call Write) : Thread Stmt Ans ε P Write → Prop
  | .dead => True
  | .idle p => Own pid p log
  | .busy p abort rest ws => Own pid p log ∧ (∃ body, pr.act p = .txn body abort) ∧
    Ends pr d Good Own Fails pid p abort rest ws log

/-- The invariant of a run. -/
structure Ok (s : Run Stmt Ans Db ε P Call Write) : Prop where
  legal : Legal Good s.log
  db : s.db = dbOf d s.log
  pids : ∀ e ∈ s.log, e.pid < s.threads.length
  threads : ∀ {pid t}, s.threads[pid]? = some t → ThreadOk pr d Good Own Fails pid s.log t
  apart : ∀ {pid t}, s.threads[pid]? = some t → ∀ l ∈ locksOf t.writes, l ∉ s.held pid

variable {pr d Good Own Fails}

theorem Ok.initial : Ok pr d Good Own Fails (.initial d) where
  legal := trivial
  db := rfl
  pids := by simp [Run.initial]
  threads := by simp [Run.initial]
  apart := by simp [Run.initial]

/-- Replace one thread by one that is in order and takes no lock another thread holds. -/
theorem Ok.set {s : Run Stmt Ans Db ε P Call Write} (ok : Ok pr d Good Own Fails s) {pid : Nat}
    {u : Thread Stmt Ans ε P Write} (hu : ThreadOk pr d Good Own Fails pid s.log u)
    (free : ∀ l ∈ locksOf u.writes, l ∉ s.held pid) : Ok pr d Good Own Fails (s.set pid u) where
  legal := ok.legal
  db := ok.db
  pids := by simpa [Run.set] using ok.pids
  threads {i t} ht := by
    rcases Run.get_set ht with ⟨rfl, rfl⟩ | ⟨-, ht⟩
    · exact hu
    · exact ok.threads ht
  apart {i t} ht l hl hheld := by
    obtain ⟨j, v, hji, hv, hlv⟩ := Run.mem_held.1 hheld
    rcases Run.get_set ht with ⟨hi, rfl⟩ | ⟨-, old⟩
    · rcases Run.get_set hv with ⟨hj, -⟩ | ⟨-, old⟩
      · exact hji (hj.trans hi.symm)
      · exact free l hl (Run.mem_held.2 ⟨j, v, hi ▸ hji, old, hlv⟩)
    · rcases Run.get_set hv with ⟨hj, rfl⟩ | ⟨-, old'⟩
      · exact free l hlv (Run.mem_held.2 ⟨i, t, hj ▸ hji.symm, old, hl⟩)
      · exact ok.apart old l hl (Run.mem_held.2 ⟨j, v, hji, old', hlv⟩)

/-- A thread stays in order when another process's good event leaves its locks alone. -/
theorem ThreadOk.event (o : Outline pr d Good Own Fails) {pid : Nat} {log : Log P Call Write}
    (legal : Legal Good log) {t : Thread Stmt Ans ε P Write}
    (ok : ThreadOk pr d Good Own Fails pid log t) {e : Event P Call Write} (other : e.pid ≠ pid)
    (free : ∀ l ∈ locksOf t.writes, l ∉ locksOf e.writes) (good : Good log e) :
    ThreadOk pr d Good Own Fails pid (e :: log) t := by
  cases t with
  | dead => trivial
  | idle p => exact o.stable legal ok other good
  | busy p abort rest ws =>
    obtain ⟨own, code, ends⟩ := ok
    exact ⟨o.stable legal own other good, code,
      Setting.wp_rely ends (.step (.refl _) e other free good)⟩

/-- Log an event of process `pid` and replace its thread by one that holds no lock. -/
theorem Ok.event (o : Outline pr d Good Own Fails) {s : Run Stmt Ans Db ε P Call Write}
    (ok : Ok pr d Good Own Fails s) (e : Event P Call Write) {q : P} {t : Thread Stmt Ans ε P Write}
    (ht : s.threads[e.pid]? = some t) (hw : e.writes = t.writes) (good : Good s.log e)
    (own : Own e.pid q (e :: s.log)) : Ok pr d Good Own Fails
      { db := view s.db e.writes, log := e :: s.log,
        threads := s.threads.set e.pid (.idle q) } where
  legal := ⟨ok.legal, good⟩
  db := by rw [ok.db]; rfl
  pids := by
    have hlt := (List.getElem?_eq_some_iff.1 ht).1
    simpa using ⟨hlt, ok.pids⟩
  threads {i u} hu := by
    rcases Run.get_set (s := s) hu with ⟨rfl, rfl⟩ | ⟨hi, hu⟩
    · exact own
    · refine (ok.threads hu).event o ok.legal (Ne.symm hi) (fun l hl hle => ?_) good
      exact ok.apart hu l hl (Run.mem_held.2 ⟨_, t, Ne.symm hi, ht, hw ▸ hle⟩)
  apart {i u} hu l hl hheld := by
    obtain ⟨j, v, hji, hv, hlv⟩ := Run.mem_held.1 hheld
    rcases Run.get_set (s := s) hu with ⟨rfl, rfl⟩ | ⟨hi, hu⟩
    · exact absurd hl List.not_mem_nil
    · rcases Run.get_set (s := s) hv with ⟨rfl, rfl⟩ | ⟨-, hv⟩
      · exact absurd hlv List.not_mem_nil
      · exact ok.apart hu l hl (Run.mem_held.2 ⟨j, v, hji, hv, hlv⟩)

theorem Ok.spawn {s : Run Stmt Ans Db ε P Call Write} (ok : Ok pr d Good Own Fails s) {p : P}
    (own : Own s.threads.length p s.log) :
    Ok pr d Good Own Fails { s with threads := s.threads ++ [.idle p] } where
  legal := ok.legal
  db := ok.db
  pids e he := by
    have := ok.pids e he
    simp only [List.length_append, List.length_singleton]
    omega
  threads {i t} ht := by
    rcases Run.get_spawn ht with ⟨rfl, rfl⟩ | ht
    · exact own
    · exact ok.threads ht
  apart {i t} ht l hl hheld := by
    obtain ⟨j, v, hji, hv, hlv⟩ := Run.mem_held.1 hheld
    rcases Run.get_spawn ht with ⟨-, rfl⟩ | ht
    · exact absurd hl List.not_mem_nil
    · rcases Run.get_spawn hv with ⟨-, rfl⟩ | hv
      · exact absurd hlv List.not_mem_nil
      · exact ok.apart ht l hl (Run.mem_held.2 ⟨j, v, hji, hv, hlv⟩)

variable [DecidableEq Lock]

theorem Outline.step (o : Outline pr d Good Own Fails) {s t : Run Stmt Ans Db ε P Call Write}
    {pid : Nat} {m : Move ε P Env Reply} (ok : Ok pr d Good Own Fails s)
    (move : pr.step s pid m = some t) : Ok pr d Good Own Fails t := by
  cases m with
  | spawn p =>
    obtain ⟨starts, ht⟩ := Option.ite_none_right_eq_some.1 move
    cases ht
    exact ok.spawn (o.start ok.legal starts fun e he h => absurd (ok.pids e he) (by omega))
  | enter env =>
    simp only [Program.step] at move
    split at move
    next p hp =>
      split at move
      next body abort code =>
        cases move
        have own : Own pid p s.log := ok.threads hp
        exact ok.set ⟨own, ⟨_, code⟩, o.txn env ok.legal own code⟩
          fun l hl => absurd hl List.not_mem_nil
      all_goals cases move
    all_goals cases move
  | exec =>
    simp only [Program.step] at move
    split at move
    next p abort st next ws hp =>
      obtain ⟨cond, ht⟩ := Option.ite_none_right_eq_some.1 move
      cases ht
      rw [Bool.and_eq_true, List.all_eq_true] at cond
      obtain ⟨own, code, ends⟩ := ok.threads hp
      rw [ok.db] at cond ⊢
      refine ok.set ⟨own, code, ends _ (.refl _) cond.1⟩ fun l hl => ?_
      simp only [Thread.writes, locksOf_append, List.mem_append] at hl
      rcases hl with hl | hl
      · exact ok.apart hp l hl
      · simpa using cond.2 l hl
    all_goals cases move
  | finish =>
    simp only [Program.step] at move
    split at move
    next p abort q ws hp =>
      cases move
      obtain ⟨own, code, ends⟩ := ok.threads hp
      obtain ⟨good, own⟩ := ends _ (.refl _)
      exact ok.event o (.commit pid p ws q) hp rfl good own
    next p abort e ws hp =>
      cases move
      obtain ⟨own, code, ends⟩ := ok.threads hp
      exact ok.set (ends _ (.refl _)).2 fun l hl => absurd hl List.not_mem_nil
    all_goals cases move
  | fault e =>
    simp only [Program.step] at move
    split at move
    next p abort rest ws hp =>
      obtain ⟨raised, ht⟩ := Option.ite_none_right_eq_some.1 move
      cases ht
      obtain ⟨own, ⟨body, code⟩, -⟩ := ok.threads hp
      exact ok.set (o.fault ok.legal own code raised) fun l hl => absurd hl List.not_mem_nil
    all_goals cases move
  | crash =>
    cases move
    exact ok.set trivial fun l hl => absurd hl List.not_mem_nil
  | call r =>
    simp only [Program.step] at move
    split at move
    next p hp =>
      split at move
      next c resume code =>
        cases move
        obtain ⟨good, own⟩ := o.call r ok.legal (ok.threads hp) code
        exact ok.event o (.call pid c) hp rfl good own
      all_goals cases move
    all_goals cases move

/-- The log of every run is legal, and the committed database is its replay. -/
theorem Outline.sound (o : Outline pr d Good Own Fails) {s : Run Stmt Ans Db ε P Call Write}
    (run : pr.Reaches d s) : Ok pr d Good Own Fails s := by
  induction run with
  | refl => exact .initial
  | step pid m _ move ih => exact o.step ih move

end Outline

end RecoverAI.Store
