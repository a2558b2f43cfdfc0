import RecoverAI.Effects.Commits
import RecoverAI.Serial.Influence

/-!
# The gates of the webhook

A request passes the signature, the body, the merchant, the inbox and, for the events that are
supported, the payment entity before it changes anything. Each gate has a rejection of its own. The
gates that compare a header with `compare_digest`, read a body with `json.loads` and write the inbox
row may also raise what no handler lists.
-/
namespace RecoverAI

open Store

section

variable [PyLib] (settings : Settings) (env : Draws) (request : Request) (d : Db)

/-- The answer to a request, and the database it leaves. -/
def answer : Response × Db :=
  match (razorpayWebhook settings env request).run d with
  | .ok answered => answered
  | .error e => (webhookError e, d)

/-! ## Gates -/

/-- No secret is configured, or the stripped header is missing, empty or not
the digest of the body. -/
def Unsigned : Prop :=
  settings.razorpayWebhookSecret = "" ∨ request.signatureHeader = none ∨
    ∃ header, request.signatureHeader = some header ∧ (Text.strip header = "" ∨
      Text.strip header ≠ PyLib.hmacSha256 settings.razorpayWebhookSecret request.rawBody)

/-- The signature is right and the body reads as a webhook. -/
def ReadsAs (webhook : RazorpayWebhook) : Prop :=
  ¬ Unsigned settings request ∧ parseRazorpayWebhook request.rawBody = .ok webhook

/-- The merchant is there and active. -/
def ServedBy (merchant : Merchant) : Prop :=
  d.merchants.get request.merchantId = some merchant ∧ merchant.isActive

/-- An event of that id, as the inbox stores it, was recorded before. -/
def RecordedBefore (webhook : RazorpayWebhook) : Prop :=
  ∃ e ∈ d.webhookEvents, e.provider = "razorpay" ∧
    e.providerEventId = assigned 128 (extractProviderEventId webhook request.rawBody)

/-- A supported event without a valid payment entity. -/
def Malformed (webhook : RazorpayWebhook) : Prop :=
  webhook.event ∈ supportedEvents ∧
    ∀ entity amountMinor currency, ¬ Validated webhook entity amountMinor currency

/-- Every failing gate answers with its own rejection and changes nothing, and nothing but the
signature is answered with 401. -/
structure Gatekept : Prop where
  unauthorized : (answer settings env request d).1.statusCode = 401 ↔ Unsigned settings request
  unsigned : Unsigned settings request → answer settings env request d = (.invalidSignature, d)
  unreadable : ¬ Unsigned settings request →
    (∀ webhook, parseRazorpayWebhook request.rawBody ≠ .ok webhook) →
    answer settings env request d = (.invalidPayload, d)
  unserved : ∀ webhook, ReadsAs settings request webhook →
    (∀ merchant, ¬ ServedBy request d merchant) →
    answer settings env request d = (.merchantNotFound, d)
  known : ∀ webhook merchant, ReadsAs settings request webhook → ServedBy request d merchant →
    RecordedBefore request d webhook → answer settings env request d = (.duplicate, d)
  malformed : ∀ webhook merchant, ReadsAs settings request webhook → ServedBy request d merchant →
    ¬ RecordedBefore request d webhook → Malformed webhook →
      answer settings env request d = (.invalidPayload, d)
  changes : (answer settings env request d).2 ≠ d →
    ∃ webhook merchant, ReadsAs settings request webhook ∧
    ServedBy request d merchant ∧ ¬ RecordedBefore request d webhook ∧ ¬ Malformed webhook

/-- The gates only raise what their handlers list: the header is ASCII, the body is not nested too
deeply, and what is about to be rejected after the inbox row was written can be written. -/
structure Answerable : Prop where
  ascii : settings.razorpayWebhookSecret ≠ "" → ∀ header, request.signatureHeader = some header →
    ∀ c ∈ (Text.strip header).toList, c.toNat < 128
  nested : ¬ Unsigned settings request → parseRazorpayWebhook request.rawBody ≠ .error .other
  storable : ∀ webhook merchant, ReadsAs settings request webhook → ServedBy request d merchant →
    RecordedBefore request d webhook ∨ Malformed webhook →
    (Row.webhookEvent (receivedEvent env merchant request webhook)).fits

/-- What `hexdigest` returns. -/
def HexDigest (s : String) : Prop :=
  s.length = 64 ∧ ∀ c ∈ s.toList, c.isDigit ∨ ('a' ≤ c ∧ c ≤ 'f')

end

/-! ## The checks before the transaction -/

theorem HexDigest.ascii {s : String} (hex : HexDigest s) : ∀ c ∈ s.toList, c.toNat < 128 := by
  intro c hc
  rcases hex.2 c hc with digit | ⟨-, letter⟩
  · simp only [Char.isDigit, Bool.and_eq_true, decide_eq_true_eq] at digit
    have := UInt32.le_iff_toNat_le.1 digit.2
    exact Nat.lt_of_le_of_lt this (by decide)
  · exact Nat.lt_of_le_of_lt (UInt32.le_iff_toNat_le.1 letter) (by decide)

section

variable [PyLib] {settings : Settings} {env : Draws} {request : Request} {d : Db}
  {webhook : RazorpayWebhook} {merchant : Merchant}

theorem verify_of_signed (signed : ¬ Unsigned settings request)
    (hex : HexDigest (PyLib.hmacSha256 settings.razorpayWebhookSecret request.rawBody)) :
    verifyRazorpaySignature settings request.rawBody request.signatureHeader = .ok true := by
  simp only [Unsigned, not_or, not_exists, not_and, Decidable.not_not] at signed
  obtain ⟨secret, missing, right⟩ := signed
  obtain ⟨header, given⟩ := Option.ne_none_iff_exists'.1 missing
  obtain ⟨filled, same⟩ := right header given
  have nonempty : header ≠ "" := by
    rintro rfl
    exact filled rfl
  have ascii : (Text.strip header).toList.all (·.toNat < 128) := by
    rw [same]
    simpa using hex.ascii
  simp only [verifyRazorpaySignature, secret, given, nonempty, if_false]
  rw [if_pos ascii, same]
  simp

/-- A wrong signature is answered with 401 exactly if the comparison does not raise. -/
theorem verify_of_unsigned (unsigned : Unsigned settings request)
    (hex : HexDigest (PyLib.hmacSha256 settings.razorpayWebhookSecret request.rawBody)) :
    verifyRazorpaySignature settings request.rawBody request.signatureHeader = .ok false ∨
      verifyRazorpaySignature settings request.rawBody request.signatureHeader = .error .other ∧
        settings.razorpayWebhookSecret ≠ "" ∧ ∃ header, request.signatureHeader = some header ∧
          ¬ ∀ c ∈ (Text.strip header).toList, c.toNat < 128 := by
  unfold verifyRazorpaySignature
  by_cases secret : settings.razorpayWebhookSecret = ""
  · exact .inl (if_pos secret)
  · rw [if_neg secret]
    cases given : request.signatureHeader with
    | none => exact .inl rfl
    | some header =>
      dsimp only
      by_cases empty : header = ""
      · exact .inl (if_pos empty)
      · rw [if_neg empty]
        by_cases ascii : ∀ c ∈ (Text.strip header).toList, c.toNat < 128
        · rw [if_pos (by simpa using ascii)]
          have wrong : PyLib.hmacSha256 settings.razorpayWebhookSecret request.rawBody ≠
              Text.strip header := by
            rcases unsigned with none | none | ⟨header', given', wrong⟩
            · exact absurd none secret
            · cases given.symm.trans none
            · obtain rfl := Option.some.inj (given.symm.trans given')
              rintro same
              rcases wrong with stripped | other
              · rw [same, stripped] at hex
                cases hex.1
              · exact other same.symm
          exact .inl (by simp [wrong])
        · rw [if_neg (by simpa using ascii)]
          exact .inr ⟨rfl, secret, header, rfl, ascii⟩

/-! ## The transaction -/

theorem run_recordAndProcess_unserved (unserved : ∀ merchant, ¬ ServedBy request d merchant) :
    (recordAndProcess env request webhook).run d = .error .merchantNotFound := by
  have none : (d.merchants.find (·.id = request.merchantId)).filter (·.isActive) = none :=
    Option.filter_eq_none_iff.2 fun merchant found active => unserved merchant ⟨found, active⟩
  unfold recordAndProcess
  rw [run_bind_ok (run_selectMerchant _)]
  simp only [none]
  rfl

/-- The inbox row decides how the transaction goes on. -/
theorem run_recordAndProcess_inbox (served : ServedBy request d merchant) :
    (recordAndProcess env request webhook).run d =
      match d.insertError (.webhookEvent (receivedEvent env merchant request webhook)) with
      | some .integrity => .error .duplicateWebhook
      | some e => .error (.db e)
      | none => (processRazorpayEvent env merchant webhook (some request.requestId) >>= fun r => do
          query (.flushWebhookEvent (receivedEvent env merchant request webhook)
            { receivedEvent env merchant request webhook with
              status := r.1, processedAt := some env.handled })
          return ⟨200, r.2⟩ : Tx Response).run
            (d.put (.webhookEvent (receivedEvent env merchant request webhook))) := by
  have found : (d.merchants.find (·.id = request.merchantId)).filter (·.isActive) = some merchant :=
    Option.filter_eq_some_iff.2 served
  unfold recordAndProcess
  rw [run_bind_ok (run_selectMerchant _)]
  simp only [found]
  cases error : d.insertError (.webhookEvent (receivedEvent env merchant request webhook)) with
  | none => rw [run_bind_ok (run_attempt_insert (insertError_eq_none.1 error))]
  | some e =>
    rw [run_bind_ok (run_attempt_insert_error error)]
    cases e <;> rfl

theorem run_processRazorpayEvent_malformed (malformed : Malformed webhook)
    {correlationId : Option String} :
    ∃ message, (processRazorpayEvent env merchant webhook correlationId).run d =
      .error (.valueError message) := by
  obtain ⟨supported, invalid⟩ := malformed
  unfold processRazorpayEvent
  rw [if_neg (not_not.2 supported)]
  cases extracted : extractPaymentEntity webhook with
  | error message => exact ⟨message, rfl⟩
  | ok entity =>
    cases priced : validateAmountMinor entity.amount with
    | error message => exact ⟨message, by simp [orValueError, priced]⟩
    | ok amountMinor =>
      cases normalized : normalizeCurrency entity.currency with
      | error message => exact ⟨message, by simp [orValueError, priced, normalized]⟩
      | ok currency =>
        exact absurd ⟨extracted, priced, normalized⟩ (invalid entity amountMinor currency)

omit [PyLib] in
theorem webhookError_statusCode (e : Err) : (webhookError e).statusCode ≠ 401 := by
  have codes : Response.merchantNotFound.statusCode = 404 ∧ Response.duplicate.statusCode = 200 ∧
      Response.invalidPayload.statusCode = 400 ∧
        Response.error.statusCode = 500 := ⟨rfl, rfl, rfl, rfl⟩
  cases e with
  | db e => cases e <;> simp [webhookError, codes]
  | _ => simp [webhookError, codes]

/-- A request that is let in is answered with 200 or by a handler. -/
theorem answer_of_admitted (admitted : admitRequest settings request = .ok webhook) :
    (answer settings env request d).1.statusCode ≠ 401 := by
  have code : razorpayWebhook settings env request = recordAndProcess env request webhook := by
    simp [razorpayWebhook, admitted]
  unfold answer
  cases run : (razorpayWebhook settings env request).run d with
  | error e => exact webhookError_statusCode e
  | ok answered =>
    obtain ⟨response, after⟩ := answered
    rw [code] at run
    obtain ⟨us, -, effect⟩ := Txn.run_ok (wp_recordAndProcess weakens_serial admitted
      (fun _ _ _ effect => effect) fun _ _ _ raises => raises) run
    cases effect with
    | rejected reason => cases admitted.symm.trans reason
    | recorded => exact show (200 : Nat) ≠ 401 by decide

/-! ## Gatekeeping -/

variable (env) in
theorem answer_of_refused {response : Response}
    (refused : admitRequest settings request = .error response) :
    answer settings env request d = (response, d) := by
  simp [answer, razorpayWebhook, refused]

variable (env) in
theorem answer_of_reads (admitted : admitRequest settings request = .ok webhook) {e : Err}
    (raises : (recordAndProcess env request webhook).run d = .error e) :
    answer settings env request d = (webhookError e, d) := by
  simp [answer, razorpayWebhook, admitted, raises]

theorem admit_of_reads (reads : ReadsAs settings request webhook)
    (hex : HexDigest (PyLib.hmacSha256 settings.razorpayWebhookSecret request.rawBody)) :
    admitRequest settings request = .ok webhook := by
  simp [admitRequest, verify_of_signed reads.1 hex, reads.2]

/-- An inbox row that its columns take is refused only as a duplicate. -/
theorem insertError_received (served : ServedBy request d merchant)
    (fresh : d.lacks (.webhookEvent env.webhookEventId))
    (fits : (Row.webhookEvent (receivedEvent env merchant request webhook)).fits) :
    (RecordedBefore request d webhook →
      d.insertError (.webhookEvent (receivedEvent env merchant request webhook)) =
        some .integrity) ∧
    (¬ RecordedBefore request d webhook →
      d.insertError (.webhookEvent (receivedEvent env merchant request webhook)) = none) := by
  refine ⟨?_, fun new => insertError_eq_none.2 ⟨fits, rfl, ?_, ?_⟩⟩
  · rintro ⟨e, he, provider, id⟩
    exact insertError_of_hasKey fits fun lacks =>
      lacks (.inbox "razorpay" (assigned 128 (extractProviderEventId webhook request.rawBody)))
        (by simp [Row.keys, receivedEvent]) e he ⟨provider, id⟩
  · intro k hk
    simp only [Row.keys, List.mem_cons, List.not_mem_nil, or_false] at hk
    rcases hk with rfl | rfl
    · exact fresh
    · exact fun e he recorded => new ⟨e, he, recorded⟩
  · have id : merchant.id = request.merchantId := (Table.get_eq_some.1 served.1).2
    simp [Db.references, Row.merchantId, receivedEvent, id, served.1]

section

variable (reads : ReadsAs settings request webhook) (served : ServedBy request d merchant)
  (hex : HexDigest (PyLib.hmacSha256 settings.razorpayWebhookSecret request.rawBody))
include reads served hex

theorem answer_unfit
    (unfit : (Row.webhookEvent (receivedEvent env merchant request webhook)).fits = false) :
    answer settings env request d = (.error, d) := by
  have error : d.insertError (.webhookEvent (receivedEvent env merchant request webhook)) =
      some .data := by
    simp [Db.insertError, unfit]
  have raises := @run_recordAndProcess_inbox _ env request d webhook merchant served
  rw [error] at raises
  exact answer_of_reads env (admit_of_reads reads hex) raises

variable (fresh : d.lacks (.webhookEvent env.webhookEventId))
  (fits : (Row.webhookEvent (receivedEvent env merchant request webhook)).fits)
include fresh fits

theorem answer_known (known : RecordedBefore request d webhook) :
    answer settings env request d = (.duplicate, d) := by
  have raises := @run_recordAndProcess_inbox _ env request d webhook merchant served
  rw [(insertError_received served fresh fits).1 known] at raises
  exact answer_of_reads env (admit_of_reads reads hex) raises

theorem answer_malformed (new : ¬ RecordedBefore request d webhook)
    (malformed : Malformed webhook) : answer settings env request d = (.invalidPayload, d) := by
  have raises := @run_recordAndProcess_inbox _ env request d webhook merchant served
  obtain ⟨message, invalid⟩ := @run_processRazorpayEvent_malformed _ env
    (d.put (.webhookEvent (receivedEvent env merchant request webhook))) webhook merchant malformed
    (some request.requestId)
  rw [(insertError_received served fresh fits).2 new] at raises
  simp only at raises
  rw [run_bind_error invalid] at raises
  exact answer_of_reads env (admit_of_reads reads hex) raises

end

theorem gatekept_of_answerable (fresh : d.lacks (.webhookEvent env.webhookEventId))
    (hex : HexDigest (PyLib.hmacSha256 settings.razorpayWebhookSecret request.rawBody))
    (answerable : Answerable settings env request d) : Gatekept settings env request d := by
  have unsigned : Unsigned settings request →
      answer settings env request d = (.invalidSignature, d) := by
    intro unsigned
    rcases verify_of_unsigned unsigned hex with refused | ⟨-, secret, header, given, wide⟩
    · exact answer_of_refused env (by simp [admitRequest, refused])
    · exact absurd (answerable.ascii secret header given) wide
  have unreadable : ¬ Unsigned settings request →
      (∀ webhook, parseRazorpayWebhook request.rawBody ≠ .ok webhook) →
      answer settings env request d = (.invalidPayload, d) := by
    intro signed none
    refine answer_of_refused env ?_
    unfold admitRequest
    rw [verify_of_signed signed hex]
    cases parsed : parseRazorpayWebhook request.rawBody with
    | ok webhook => exact absurd parsed (none webhook)
    | error e => cases e with
      | valueError => rfl
      | other => exact absurd parsed (answerable.nested signed)
  have unserved : ∀ webhook, ReadsAs settings request webhook →
      (∀ merchant, ¬ ServedBy request d merchant) →
      answer settings env request d = (.merchantNotFound, d) := fun webhook reads unserved =>
    answer_of_reads env (admit_of_reads reads hex) (run_recordAndProcess_unserved unserved)
  have known : ∀ webhook merchant, ReadsAs settings request webhook → ServedBy request d merchant →
      RecordedBefore request d webhook → answer settings env request d = (.duplicate, d) :=
    fun webhook merchant reads served known =>
      answer_known reads served hex fresh
        (answerable.storable webhook merchant reads served (.inl known)) known
  have malformed : ∀ webhook merchant, ReadsAs settings request webhook →
      ServedBy request d merchant →
      ¬ RecordedBefore request d webhook → Malformed webhook →
        answer settings env request d = (.invalidPayload, d) :=
    fun webhook merchant reads served new malformed =>
      answer_malformed reads served hex fresh
        (answerable.storable webhook merchant reads served (.inr malformed))
        new malformed
  refine ⟨⟨fun code => ?_, fun h => by rw [unsigned h]; rfl⟩, unsigned, unreadable, unserved,
    known, malformed, fun changed => ?_⟩
  · by_contra signed
    by_cases reads : ∃ webhook, parseRazorpayWebhook request.rawBody = .ok webhook
    · obtain ⟨webhook, parsed⟩ := reads
      exact answer_of_admitted (admit_of_reads ⟨signed, parsed⟩ hex) code
    · rw [unreadable signed fun webhook parsed => reads ⟨webhook, parsed⟩] at code
      cases code
  · by_cases signed : Unsigned settings request
    · exact absurd (congrArg Prod.snd (unsigned signed)) changed
    · by_cases reads : ∃ webhook, parseRazorpayWebhook request.rawBody = .ok webhook
      · obtain ⟨webhook, parsed⟩ := reads
        by_cases active : ∃ merchant, ServedBy request d merchant
        · obtain ⟨merchant, served⟩ := active
          refine ⟨webhook, merchant, ⟨signed, parsed⟩, served, fun before => ?_, fun invalid => ?_⟩
          · exact changed
              (congrArg Prod.snd (known webhook merchant ⟨signed, parsed⟩ served before))
          · by_cases before : RecordedBefore request d webhook
            · exact changed
                (congrArg Prod.snd (known webhook merchant ⟨signed, parsed⟩ served before))
            · exact changed (congrArg Prod.snd
                (malformed webhook merchant ⟨signed, parsed⟩ served before invalid))
        · exact absurd (congrArg Prod.snd (unserved webhook ⟨signed, parsed⟩ fun merchant served =>
            active ⟨merchant, served⟩)) changed
      · exact absurd (congrArg Prod.snd
          (unreadable signed fun webhook parsed => reads ⟨webhook, parsed⟩)) changed

/-- Text that is not ASCII is not compared. -/
theorem verify_of_wide (secret : settings.razorpayWebhookSecret ≠ "") {header : String}
    (given : request.signatureHeader = some header)
    (wide : ¬ ∀ c ∈ (Text.strip header).toList, c.toNat < 128) :
    verifyRazorpaySignature settings request.rawBody request.signatureHeader = .error .other := by
  have nonempty : header ≠ "" := by
    rintro rfl
    exact wide fun c hc => absurd hc List.not_mem_nil
  unfold verifyRazorpaySignature
  rw [if_neg secret, given]
  simp only [nonempty, if_false]
  exact if_neg (by simpa using wide)

/-- The webhook keeps its gates where they only raise what their handlers list. -/
theorem gatekept_iff (fresh : d.lacks (.webhookEvent env.webhookEventId))
    (hex : HexDigest (PyLib.hmacSha256 settings.razorpayWebhookSecret request.rawBody)) :
    Gatekept settings env request d ↔ Answerable settings env request d := by
  refine ⟨fun kept => ⟨fun secret header given => ?_, fun signed parsed => ?_,
    fun webhook merchant reads served rejected => ?_⟩, gatekept_of_answerable fresh hex⟩
  · by_contra wide
    have other : Text.strip header ≠
        PyLib.hmacSha256 settings.razorpayWebhookSecret request.rawBody := by
      intro same
      exact wide (same ▸ hex.ascii)
    have uncaught : answer settings env request d = (.uncaught, d) :=
      answer_of_refused env (by simp [admitRequest, verify_of_wide secret given wide])
    have rejected := kept.unsigned (.inr (.inr ⟨header, given, .inr other⟩))
    cases congrArg (fun a => a.1.statusCode) (uncaught.symm.trans rejected)
  · have uncaught : answer settings env request d = (.uncaught, d) :=
      answer_of_refused env (by simp [admitRequest, verify_of_signed signed hex, parsed])
    have rejected := kept.unreadable signed fun webhook read => by
      rw [parsed] at read
      cases read
    cases congrArg (fun a => a.1.statusCode) (uncaught.symm.trans rejected)
  · by_contra unfit
    have failed := @answer_unfit _ settings env request d webhook merchant reads served hex
      (by simpa using unfit)
    by_cases before : RecordedBefore request d webhook
    · cases congrArg (fun a => a.1.statusCode)
        (failed.symm.trans (kept.known webhook merchant reads served before))
    · cases congrArg (fun a => a.1.statusCode)
        (failed.symm.trans
          (kept.malformed webhook merchant reads served before (rejected.resolve_left before)))

end

theorem gatekept_iff_sample :
    let _ : PyLib := .recorded [captured]
    Gatekept {} (Env.numbered 1).draws captured.request sampleDb ↔
      Answerable {} (Env.numbered 1).draws captured.request sampleDb := by
  intro _
  have same : PyLib.hmacSha256 ({} : Settings).razorpayWebhookSecret captured.request.rawBody =
      captured.signature := by
    decide +kernel
  have digits : captured.signature.toList.all fun c => c.isDigit || ('a' ≤ c && c ≤ 'f') := by
    decide +kernel
  have hex : HexDigest captured.signature := ⟨by decide +kernel, by simpa using digits⟩
  exact gatekept_iff (by decide +kernel) (same ▸ hex)

/-- The event with a signature that is not ASCII. -/
def wideRequest : Request := { captured.request with signatureHeader := some "é" }

theorem wideRequest_uncaught :
    (@answer (.recorded [captured]) {} (Env.numbered 1).draws wideRequest sampleDb).1.statusCode =
      500 := by
  decide +kernel

theorem wideRequest_unsigned : @Unsigned (.recorded [captured]) {} wideRequest := by
  refine .inr (.inr ⟨"é", rfl, .inr ?_⟩)
  decide +kernel

/-- The comparison raises, and the wrong signature is answered with 500. -/
theorem wide_signature_uncaught :
    ¬ @Gatekept (.recorded [captured]) {} (Env.numbered 1).draws wideRequest sampleDb := by
  intro kept
  have refused :=
    (@Gatekept.unauthorized (.recorded [captured]) _ _ _ _ kept).2 wideRequest_unsigned
  rw [wideRequest_uncaught] at refused
  cases refused

end RecoverAI
