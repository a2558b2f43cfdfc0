import RecoverAI.Effects.Eligible
import RecoverAI.Effects.Executor
import RecoverAI.Effects.Webhook
import RecoverAI.System.Processes

/-!
# What a process commits

The effects of all transactions in one relation: `Commits p ws q` says that control state `p` may
commit the rows `ws` and go on as `q`.
-/
namespace RecoverAI

open Store

section

variable [PyLib] {T : Type} (db : T → Db) (R : List Row → T → T → Prop)

/-- The event a message names. -/
def Names (d : Db) (outboxEventId : String) (outbox : OutboxEvent) : Prop :=
  ∃ id, Uuid.parse outboxEventId = some id ∧ d.outbox.get id = some outbox

/-- The events the worker handles. -/
def handledEvents : List String := ["recovery_case.eligible", "recovery_case.action_scheduled"]

inductive TaskEffect (job : Job) : Process → T → Prop where
  | returned {result t} (missed : ∀ outbox, ∃ t₀, R [] t₀ t ∧
      ¬ (Names (db t₀) job.outboxEventId outbox ∧ outbox.eventType ∈ handledEvents)) :
      TaskEffect job (.returned job result) t
  | eligible {outbox t} (read : ∃ t₀, R [] t₀ t ∧ Names (db t₀) job.outboxEventId outbox)
      (type : outbox.eventType = "recovery_case.eligible") : TaskEffect job (.eligible job) t
  | claim {outbox t} (read : ∃ t₀, R [] t₀ t ∧ Names (db t₀) job.outboxEventId outbox)
      (type : outbox.eventType = "recovery_case.action_scheduled") :
      TaskEffect job (.claim job outbox.payload) t

/-- The control state after a claim. -/
def afterClaim (job : Job) : ClaimResult → Process
  | .claimed claim => .external job claim
  | .refused result => .returned job result

variable (settings : Settings) (allows : Db → Stmt → Prop)

inductive Commits : Process → List Row → Process → T → Prop where
  | webhook {request response env us t}
      (effect : WebhookEffect db R env allows settings request response us t) :
      Commits (.webhook request) us (.answered response) t
  | task {job next t} (effect : TaskEffect db R job next t) : Commits (.task job) [] next t
  | eligible {job env result us t}
      (effect : EligibleEffect db R env job.outboxEventId result us t) :
      Commits (.eligible job) us (.returned job result) t
  | unnamed {job payload result t} (none : (Json.item payload "recovery_action_id").uuid = none) :
      Commits (.claim job payload) [] (.returned job result) t
  | claim {job payload actionId env result us t}
      (id : (Json.item payload "recovery_action_id").uuid = some actionId)
      (effect : ClaimEffect db R env actionId result us t) :
      Commits (.claim job payload) us (afterClaim job result) t
  | success {job claim reference details env us t} (effect : SuccessEffect db R env claim us t) :
      Commits (.success job claim reference details) us
        (.returned job (executedResult claim reference)) t
  | failure {job claim error env us t} (effect : FailureEffect db R env claim us t) :
      Commits (.failure job claim error) us (afterFailure job error) t

/-- What is known when a transaction raises. -/
def Raises : Process → Err → List Row → T → Prop
  | .webhook request, e, us, t => ∃ env, WebhookRaises db R env allows settings request e us t
  | _, _, _, _ => True

end

variable [PyLib] {C : Setting Stmt Db Row} {R : List Row → C.State → C.State → Prop} {us : List Row}
  {s t : C.State} {settings : Settings}

theorem wp_processOutboxEvent (hR : C.Weakens R) {X : Err → List Row → C.State → Prop} {job : Job}
    {Q : Process → List Row → C.State → Prop}
    (hQ : ∀ next t, TaskEffect C.db R job next t → Q next [] t) :
    C.wp (processOutboxEvent job) Q X [] s := by
  unfold processOutboxEvent
  split
  next invalid =>
    refine hQ _ _ (.returned fun outbox => ⟨s, hR.refl, fun ⟨⟨id, parsed, _⟩, _⟩ => ?_⟩)
    rw [invalid] at parsed
    cases parsed
  next id hid =>
    rw [Setting.wp_bind]
    refine wp_selectOutbox fun t₁ h₁ => ?_
    have lookup : (C.sees [] t₁).outbox.find (·.id = id) = (C.db t₁).outbox.get id := rfl
    rw [lookup]
    have named : ∀ outbox, Names (C.db t₁) job.outboxEventId outbox →
        (C.db t₁).outbox.get id = some outbox := by
      rintro outbox ⟨id', parsed, found⟩
      rwa [Option.some.inj (hid.symm.trans parsed)]
    split
    next none =>
      refine hQ _ _ (.returned fun outbox => ⟨t₁, hR.refl, fun h => ?_⟩)
      have found := named outbox h.1
      rw [none] at found
      cases found
    next outbox found =>
      have read : ∃ t₀, R [] t₀ t₁ ∧ Names (C.db t₀) job.outboxEventId outbox :=
        ⟨t₁, hR.refl, id, hid, found⟩
      split
      next type => exact hQ _ _ (.eligible read type)
      next eligible =>
        split
        next type => exact hQ _ _ (.claim read type)
        next scheduled =>
          refine hQ _ _ (.returned fun outbox' => ⟨t₁, hR.refl, fun h => ?_⟩)
          obtain rfl := Option.some.inj (found.symm.trans (named outbox' h.1))
          simp [handledEvents, eligible, scheduled] at h

theorem wp_claimFromPayload (hR : C.Weakens R) {X : Err → List Row → C.State → Prop} {job : Job}
    {payload : Fields} {env : Draws} {Q : Process → List Row → C.State → Prop}
    (hQ : ∀ next us t,
      Commits C.db R settings C.allows (.claim job payload) us next t → Q next us t)
    (hX : ∀ e us t, X e us t) : C.wp (claimFromPayload env job payload) Q X [] s := by
  unfold claimFromPayload
  split
  next none => exact hQ _ _ _ (.unnamed none)
  next actionId hid =>
    rw [Setting.wp_bind]
    refine wp_claimAction hR (fun result us t effect => ?_) hX
    have commits := hQ _ _ _ (.claim hid effect)
    cases result <;> exact commits

/-- Every transaction of every process commits as described. -/
theorem wp_act (hR : C.Weakens R) {p : Process} {body : Env → Tx Process} {abort : Err → Process}
    (code : p.act settings = .txn body abort) (env : Env) :
    C.wp (body env) (fun q us t => Commits C.db R settings C.allows p us q t)
      (fun e us t => Raises C.db R settings C.allows p e us t) [] s := by
  cases p <;> cases code
  case webhook request =>
    rw [Setting.wp_bind]
    exact wp_razorpayWebhook hR (fun response us t effect => .webhook effect)
      fun e us t raises => ⟨_, raises⟩
  case task job => exact wp_processOutboxEvent hR fun next t effect => .task effect
  case eligible job =>
    rw [Setting.wp_bind]
    exact wp_processEligibleEvent hR (fun result us t effect => .eligible effect)
      fun _ _ _ => trivial
  case claim job payload => exact wp_claimFromPayload hR (fun _ _ _ h => h) fun _ _ _ => trivial
  case success job claim reference details =>
    rw [Setting.wp_bind]
    exact wp_finalizeSuccess hR (fun us t effect => .success effect) fun _ _ _ => trivial
  case failure job claim error =>
    rw [Setting.wp_bind]
    exact wp_finalizeFailure hR (fun us t effect => .failure effect) fun _ _ _ => trivial

theorem TaskEffect.later (hR : C.Weakens R) {job : Job} {next : Process}
    (h : TaskEffect C.db R job next s) {ws : List Row} (ht : C.rely ws s t) :
    TaskEffect C.db R job next t := by
  cases h with
  | returned missed => exact .returned fun outbox => hR.later (missed outbox) ht
  | eligible read type => exact .eligible (hR.later read ht) type
  | claim read type => exact .claim (hR.later read ht) type

theorem Commits.later (hR : C.Weakens R) {p q : Process}
    (h : Commits C.db R settings C.allows p us q s) (ht : C.rely us s t) :
    Commits C.db R settings C.allows p us q t := by
  cases h with
  | webhook effect => exact .webhook (effect.later hR ht)
  | task effect => exact .task (effect.later hR ht)
  | eligible effect => exact .eligible (effect.later hR ht)
  | unnamed none => exact .unnamed none
  | claim id effect => exact .claim id (effect.later hR ht)
  | success effect => exact .success (effect.later hR ht)
  | failure effect => exact .failure (effect.later hR ht)

end RecoverAI
