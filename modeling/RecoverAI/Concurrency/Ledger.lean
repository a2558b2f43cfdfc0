import RecoverAI.Invariants.Sound

/-!
# The ledger of a run

The proof outline of the service under interleaving: every committed event is one of the effects,
and a process that carries a claim made it itself. The database is sound after every run.
-/
namespace RecoverAI

open Store

variable [PyLib] (settings : Settings) (d : Db) (allows : Db → Stmt → Bool)

abbrev Ledger := Log Process Claim Row

/-- `log'` is `log` with events of other processes that leave the locks of `ws` alone. -/
abbrev Since (pid : Nat) (ws : List Row) : Ledger → Ledger → Prop :=
  Others (fun _ _ => True) pid ws

/-- The claim that is carried is on an action of the claim's case. -/
def Carries (log : Ledger) (carried : Option Claim) : Prop :=
  ∀ claim, carried = some claim →
    ∃ a ∈ (dbOf d log).actions, a.id = claim.actionId ∧ a.recoveryCaseId = claim.caseId

/-- The commit in which a process made its claim. -/
def Claims (log : Ledger) (pid : Nat) (claim : Claim) : Prop :=
  ∃ job p us, .commit pid p us (.external job claim) ∈ log

/-- How far a control state has come. -/
def Process.stage : Process → Nat
  | .webhook _ | .task _ => 0
  | .eligible _ | .claim .. => 1
  | .external .. => 2
  | .success .. | .failure .. => 3
  | .answered _ | .returned .. | .raised .. => 4

/-- The stage of the control state an event was made in. -/
def Store.Event.stage : Event Process Claim Row → Nat
  | .commit _ p .. => p.stage
  | .call .. => 2

/-- What a process knows of the ledger: its claim, and that it has not been as far before. -/
structure Own (pid : Nat) (p : Process) (log : Ledger) : Prop where
  carries : Carries d log p.claim?
  claimed : ∀ claim, p.claim? = some claim → Claims log pid claim
  before : ∀ e ∈ log, e.pid = pid → e.stage < p.stage

/-- The events of the service. -/
def Good (log : Ledger) : Event Process Claim Row → Prop
  | .commit pid p us q => Own d pid p log ∧
    Commits (dbOf d) (Since pid) settings (fun v st => allows v st) p us q log
  | .call pid claim => ∃ job, Own d pid (.external job claim) log

/-- What is known when a transaction raises: the failing statement was executed at some moment
before, and the locks were held since. -/
def Fails (pid : Nat) (p : Process) (e : Err) (log : Ledger) : Prop :=
  ∃ us before, Others (Good settings d allows) pid us before log ∧
    Raises (dbOf d) (Since pid) settings (fun v st => allows v st) p e us before

variable {settings d allows} {pid : Nat} {ws : List Row} {log log' : Ledger}
  {carried : Option Claim} {claim : Claim}

omit [PyLib] in
theorem Store.Others.since {Good : Ledger → Event Process Claim Row → Prop}
    (h : Others Good pid ws log log') : Since pid ws log log' := by
  induction h with
  | refl => exact .refl _
  | step _ e other free _ ih => exact .step ih e other free trivial

omit [PyLib] in
theorem weakens_since {Good : Ledger → Event Process Claim Row → Prop}
    (grants : Db → Stmt → Prop) : (Setting.among d Good grants pid).Weakens (Since pid) where
  of_rely := Others.since
  trans := Others.trans
  anti := Others.anti

/-- The database grows along a legal ledger. -/
theorem grows_of_suffix (legal : Legal (Good settings d allows) log') (h : log <:+ log') :
    (dbOf d log).Grows (dbOf d log') := by
  obtain ⟨before, rfl⟩ := h
  induction before with
  | nil => exact .refl _
  | cons e before ih =>
    refine (ih legal.1).trans ?_
    cases e with
    | commit pid p us q => exact legal.2.2.grows
    | call pid claim => exact .refl _

theorem past_of_legal (legal : Legal (Good settings d allows) log)
    (sound : ∀ log₀, log₀ <:+ log → (dbOf d log₀).Sound) : Past (dbOf d) (Since pid) log where
  now := .refl _
  trans := Others.trans
  sound h := sound _ h.suffix
  grows h₀ h₁ := grows_of_suffix (legal.suffix h₁.suffix) h₀.suffix

/-- Where a claim is carried, every earlier version of its action belongs to its case. -/
theorem Carries.backed (legal : Legal (Good settings d allows) log)
    (h : Carries d log carried) : Backed (dbOf d) (Since pid) carried log := by
  intro claim carried log₀ action h₀ ha
  obtain ⟨a, hmem, id, caseId⟩ := h claim carried
  obtain ⟨mem, hid⟩ := Table.get_eq_some.1 ha
  obtain ⟨a', ha', same⟩ := (grows_of_suffix legal h₀.suffix).actions action mem
  have : a' = a := Table.eq_of_key ha' hmem (same.id.trans (hid.trans id.symm))
  rw [← same.recoveryCaseId, this, caseId]

/-- The database is sound after every legal ledger. -/
theorem sound_of_legal (sound : d.Sound) (legal : Legal (Good settings d allows) log) :
    ∀ log₀, log₀ <:+ log → (dbOf d log₀).Sound := by
  induction log with
  | nil =>
    intro log₀ h
    obtain rfl := List.suffix_nil.1 h
    exact sound
  | cons e log ih =>
    intro log₀ h
    rcases List.suffix_cons_iff.1 h with rfl | h
    · cases e with
      | commit pid p us q =>
        obtain ⟨own, commits⟩ := legal.2
        exact commits.work.sound (past_of_legal legal.1 (ih legal.1)) commits.grows
          (own.carries.backed legal.1)
      | call pid claim => exact ih legal.1 log (List.suffix_refl _)
    · exact ih legal.1 log₀ h

theorem Store.Legal.past (legal : Legal (Good settings d allows) log) (sound : d.Sound) :
    Past (dbOf d) (Since pid) log :=
  past_of_legal legal (sound_of_legal sound legal)

/-! ## The outline -/

omit [PyLib] in
theorem Carries.event (h : Carries d log carried) {e : Event Process Claim Row}
    (grows : (dbOf d log).Grows (dbOf d (e :: log))) : Carries d (e :: log) carried := by
  intro claim hc
  obtain ⟨a, ha, id, caseId⟩ := h claim hc
  obtain ⟨a', ha', same⟩ := grows.actions a ha
  exact ⟨a', ha', same.id.trans id, same.recoveryCaseId.trans caseId⟩

omit [PyLib] in
theorem Claims.event (h : Claims log pid claim) (e : Event Process Claim Row) :
    Claims (e :: log) pid claim :=
  let ⟨job, p, us, mem⟩ := h
  ⟨job, p, us, List.mem_cons_of_mem e mem⟩

theorem Store.Legal.grows {e : Event Process Claim Row}
    (legal : Legal (Good settings d allows) (e :: log)) : (dbOf d log).Grows (dbOf d (e :: log)) :=
  grows_of_suffix legal (List.suffix_cons e log)

/-- What a process knows stays true while others go on. -/
theorem Own.others {p : Process} {e : Event Process Claim Row} (own : Own d pid p log)
    (legal : Legal (Good settings d allows) (e :: log)) (other : e.pid ≠ pid) :
    Own d pid p (e :: log) where
  carries := own.carries.event legal.grows
  claimed claim hp := (own.claimed claim hp).event e
  before e' he own' := by
    rcases List.mem_cons.1 he with rfl | he
    · exact absurd own' other
    · exact own.before e' he own'

theorem Own.later {p : Process} (own : Own d pid p log) (legal : Legal (Good settings d allows) log)
    (h : Others (Good settings d allows) pid ws log log') : Own d pid p log' := by
  induction h with
  | refl => exact own
  | step before e other free good ih => exact ih.others ⟨before.legal legal, good⟩ other

omit [PyLib] in
/-- Without a claim a process only knows how far it has come. -/
theorem Own.unclaimed {p : Process} (carried : p.claim? = none)
    (before : ∀ e ∈ log, e.pid = pid → e.stage < p.stage) : Own d pid p log where
  carries claim h := by
    rw [carried] at h
    cases h
  claimed claim h := by
    rw [carried] at h
    cases h
  before := before

omit [PyLib] in
/-- The stages grow with every event of a process. -/
theorem Own.event {p : Process} {e : Event Process Claim Row} {n : Nat} (own : Own d pid p log)
    (here : e.stage = p.stage) (further : p.stage < n) :
    ∀ e' ∈ e :: log, e'.pid = pid → e'.stage < n := by
  intro e' he own'
  rcases List.mem_cons.1 he with rfl | he
  · exact here ▸ further
  · exact (own.before e' he own').trans further

/-- What a process knows after its commit. -/
theorem Own.commit {p q : Process} {us : List Row}
    (legal : Legal (Good settings d allows) (.commit pid p us q :: log)) :
    Own d pid q (.commit pid p us q :: log) := by
  obtain ⟨own, commits⟩ := legal.2
  have next : ∀ {q' : Process}, q'.claim? = none → p.stage < q'.stage →
      Own d pid q' (.commit pid p us q :: log) := fun carried further =>
    .unclaimed carried (own.event rfl further)
  cases commits with
  | webhook | eligible | unnamed | success => exact next rfl (by simp [Process.stage])
  | task effect => cases effect <;> exact next rfl (by simp [Process.stage])
  | @failure job claim error =>
    rcases hr : error.razorpay <;> simp only [afterFailure, hr] at next ⊢ <;>
      exact next rfl (by simp [Process.stage])
  | @claim job payload actionId env result us _ id effect =>
    cases effect with
    | refused | cancelled => exact next rfl (by simp [Process.stage, afterClaim])
    | @claimed claim action a case ps details _ held open_ from_ audit =>
      refine ⟨fun claim' h => ?_, fun claim' h => ?_,
        own.event rfl (by simp [Process.stage, afterClaim])⟩
      · obtain rfl := Option.some.inj h
        obtain ⟨t₀, t₁, h₀, h₁, found, foundCase⟩ := held.seen
        obtain ⟨mem, rfl⟩ := Table.get_eq_some.1 found
        obtain ⟨a', ha', same⟩ := (grows_of_suffix legal ((h₀.suffix.trans h₁.suffix).trans
          (List.suffix_cons _ _))).actions action mem
        refine ⟨a', ha', same.id.trans from_.actionId.symm, ?_⟩
        rw [same.recoveryCaseId, from_.caseId]
        exact (Table.get_eq_some.1 foundCase).2.symm
      · obtain rfl := Option.some.inj h
        exact ⟨_, _, _, List.mem_cons_self ..⟩

omit [PyLib] in
theorem taskError_ended (job : Job) (e : Err) :
    (taskError job e).claim? = none ∧ (taskError job e).stage = 4 := by
  cases e with
  | db e => cases e <;> exact ⟨rfl, rfl⟩
  | _ => exact ⟨rfl, rfl⟩

theorem Own.abort {p : Process} {body : Env → Tx Process} {abort : Err → Process}
    (own : Own d pid p log) (code : p.act settings = .txn body abort) (e : Err) :
    Own d pid (abort e) log := by
  have next : ∀ {q : Process}, q.claim? = none → p.stage < q.stage → Own d pid q log :=
    fun carried further => .unclaimed carried fun e he own' => (own.before e he own').trans further
  cases p <;> cases code
  case webhook => exact next rfl (by simp [Process.stage])
  all_goals exact next (taskError_ended _ e).1 ((taskError_ended _ e).2 ▸ by simp [Process.stage])

/-- The proof outline of the service, whichever of its processes are started. -/
theorem outline {pr : Program Stmt Stmt.Ans Db Err Process Env Claim ExternalReply}
    (code : pr.act = Process.act settings) (starts : ∀ p, pr.starts p → p.starts) :
    Outline pr d (Good settings d pr.allows) (Own d) (Fails settings d pr.allows) where
  start {pid p log} legal started fresh := by
    have none : p.claim? = none := by
      have := starts p started
      cases p <;> first | rfl | cases this
    exact .unclaimed none fun e he own => absurd own (fresh e he)
  stable legal own other good := own.others ⟨legal, good⟩ other
  txn {pid p body abort log} env legal own act := by
    have hR : (pr.among d (Good settings d pr.allows) pid).Weakens (Since pid) := weakens_since _
    have later : ∀ {us t u}, Others (Good settings d pr.allows) pid [] log t →
        Others (Good settings d pr.allows) pid us t u →
        Others (Good settings d pr.allows) pid [] log u := fun ht hu =>
      Others.trans ht (Others.anti (List.nil_subset _) hu)
    refine Setting.wp_since
      (Setting.wp_mono (wp_act hR (code ▸ act) env) (fun q us t commits _ ht => ?_)
      fun e us t raises _ ht u hu =>
        ⟨⟨us, t, hu, raises⟩, (own.later legal (later ht hu)).abort (code ▸ act) e⟩)
    intro u hu
    have good : Good settings d pr.allows u (.commit pid p us q) :=
      ⟨own.later legal (later ht hu), commits.later hR hu⟩
    exact ⟨good, .commit ⟨(later ht hu).legal legal, good⟩⟩
  fault legal own act _ := own.abort (code ▸ act) _
  call {pid p c resume log} r legal own act := by
    rw [code] at act
    cases p <;> cases act
    case external job =>
      have good : Good settings d pr.allows log (.call pid c) := ⟨job, own⟩
      have carries := own.carries.event (Store.Legal.grows ⟨legal, good⟩)
      have claimed := fun claim h => (own.claimed claim h).event (.call pid c)
      have before := own.event (e := .call pid c) (n := 3) rfl (by simp [Process.stage])
      refine ⟨good, ?_⟩
      unfold afterExternal
      split
      · exact ⟨carries, claimed, before⟩
      · exact ⟨carries, claimed, before⟩

end RecoverAI
