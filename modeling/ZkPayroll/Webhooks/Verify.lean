import ZkPayroll.Framework.Guards
import ZkPayroll.Framework.JsonKeys

/-!
# Verification of webhooks

`computeSignature` and `verifyWebhookSignature` of `webhooks/verify.ts`. The
signature is an HMAC of the payload serialised by the keys at its top, so it
binds `namedPart payload` and nothing more: `signed_payload_bound_iff` says for
which payloads a signature of another is taken as theirs.

Times are in milliseconds, and `now` is what `Date.now()` returns.
-/

namespace ZkPayroll.Webhooks

open Framework

/-! ## Data -/

/-- What verification uses of the platform: HMAC-SHA256 under a secret, and
`new Date(v).getTime()`, `none` for `NaN`. -/
structure WebhookHost (Secret ν : Type) where
  hmacSha256 : Secret → String → List UInt8
  dateTime : Json ν → Option Int

/-- `SignedWebhookEnvelope`; `none` is a field that is missing. -/
structure SignedWebhookEnvelope (ν : Type) where
  payload : Option (Json ν)
  signature : Option String
  version : Option String

/-- `WebhookVerificationOptions`. -/
structure WebhookVerificationOptions where
  maxAgeMs : Option Int := none
  toleranceMs : Option Int := none

/-- A value in the context of an error. -/
inductive ContextValue (ν : Type) where
  | text (s : String)
  | number (n : Int)
  /-- A property of the payload, where it has it. -/
  | property (v : Option (Json ν))

/-- `WebhookVerificationError`. -/
structure WebhookVerificationError (ν : Type) where
  message : String
  code : String
  context : List (String × ContextValue ν) := []

def DEFAULT_MAX_AGE_MS : Int := 5 * 60 * 1000

def SIGNATURE_PREFIX : String := "sha256="

variable {Secret ν : Type} [NumberFormat ν]

/-- Whether a JSON value is true in a condition: all are but `null`, `false`,
zero and the empty string. -/
def truthy : Json ν → Bool
  | .null => false
  | .bool b => b
  | .num n => NumberFormat.toText n != ['0']
  | .str s => s != ""
  | .arr _ | .obj _ => true

/-- `payload[key]`, for a key that no prototype has. -/
def payloadProperty (key : String) : Json ν → Option (Json ν)
  | .obj fields => fields.lookup key
  | _ => none

/-! ## Signing -/

def canonicalSerialize (payload : Json ν) : String := stringifySorted payload

def computeSignature (host : WebhookHost Secret ν) (payload : Json ν) (secret : Secret) : String :=
  SIGNATURE_PREFIX ++ String.ofList (hexEncode (host.hmacSha256 secret (canonicalSerialize payload)))

/-! ## Verification -/

/-- The age limits of `verifyWebhookSignature`, once the signature has been
found right. -/
def checkFreshness (host : WebhookHost Secret ν) (options : WebhookVerificationOptions) (now : Int)
    (payload : Json ν) : Except (WebhookVerificationError ν) Unit :=
  let maxAgeMs := options.maxAgeMs.getD DEFAULT_MAX_AGE_MS
  let toleranceMs := options.toleranceMs.getD 0
  if maxAgeMs > 0 then
    match (payloadProperty "timestamp" payload).filter truthy with
    | none => .error
        { message := "Webhook payload is missing timestamp; cannot enforce max age"
          code := "TIMESTAMP_MISSING" }
    | some timestamp =>
      match host.dateTime timestamp with
      | none => .error
          { message := "Webhook payload has an invalid timestamp"
            code := "TIMESTAMP_INVALID"
            context := [("timestamp", .property (some timestamp))] }
      | some eventTime =>
        let age := now - eventTime + toleranceMs
        if age > maxAgeMs then .error
          { message := "Webhook payload has expired (exceeded maximum allowed age)"
            code := "PAYLOAD_EXPIRED"
            -- `Math.round` rounds halves up
            context := [("timestamp", .property (some timestamp)), ("age", .number ((age + 500) / 1000)),
              ("maxAge", .number ((maxAgeMs + 500) / 1000))] }
        else if eventTime > now + toleranceMs then .error
          { message := "Webhook payload timestamp is in the future"
            code := "TIMESTAMP_FUTURE"
            context := [("timestamp", .property (some timestamp)), ("toleranceMs", .number toleranceMs)] }
        else .ok ()
  else .ok ()

/-- `verifyWebhookSignature`. An envelope that is no object is `none`. -/
def verifyWebhookSignature (host : WebhookHost Secret ν) (envelope : Option (SignedWebhookEnvelope ν))
    (secret : Secret) (options : WebhookVerificationOptions) (now : Int) :
    Except (WebhookVerificationError ν) (Json ν) := do
  let envelope ← orThrow
    { message := "Invalid webhook envelope: expected an object", code := "ENVELOPE_INVALID" } envelope
  let payload ← orThrow
    { message := "Invalid webhook envelope: missing payload", code := "PAYLOAD_MISSING" }
    (envelope.payload.filter truthy)
  let signature ← orThrow
    { message := "Invalid webhook envelope: missing signature", code := "SIGNATURE_MISSING" }
    (envelope.signature.filter (· != ""))
  let version ← orThrow
    { message := "Invalid webhook envelope: missing version", code := "VERSION_MISSING" }
    (envelope.version.filter (· != ""))
  throwIf (version ≠ "1")
    { message := "Unsupported webhook envelope version: \"" ++ version ++ "\""
      code := "UNSUPPORTED_VERSION"
      context := [("version", .text version)] }
  throwIf (¬ SIGNATURE_PREFIX.toList.isPrefixOf signature.toList)
    { message := "Invalid signature format: expected 'sha256=...' prefix"
      code := "SIGNATURE_FORMAT_INVALID" }
  let receivedSig := signature.toList.drop SIGNATURE_PREFIX.length
  throwIf (receivedSig = [])
    { message := "Invalid signature: empty digest after prefix", code := "SIGNATURE_EMPTY" }
  let computedDigest := (computeSignature host payload secret).toList.drop SIGNATURE_PREFIX.length
  throwIf (hexDecode receivedSig ≠ hexDecode computedDigest)
    { message := "Webhook signature mismatch: payload may have been tampered with"
      code := "SIGNATURE_MISMATCH"
      context := [("eventId", .property (payloadProperty "eventId" payload))] }
  checkFreshness host options now payload
  return payload

/-! ## What is accepted -/

theorem digest_of_computeSignature (host : WebhookHost Secret ν) (payload : Json ν) (secret : Secret) :
    (computeSignature host payload secret).toList.drop SIGNATURE_PREFIX.length =
      hexEncode (host.hmacSha256 secret (canonicalSerialize payload)) := by
  rw [computeSignature, String.toList_append, ← String.length_toList, List.drop_left, String.toList_ofList]

/-- A signature is the prefix followed by a digest. -/
theorem eq_prefix_append_iff {signature : String} {hex : List Char} :
    signature = SIGNATURE_PREFIX ++ String.ofList hex ↔
      SIGNATURE_PREFIX.toList.isPrefixOf signature.toList = true ∧
        signature.toList.drop SIGNATURE_PREFIX.length = hex := by
  rw [← String.toList_inj, String.toList_append, String.toList_ofList, List.isPrefixOf_iff_prefix,
    ← String.length_toList]
  constructor
  · intro h
    rw [h]
    exact ⟨List.prefix_append _ _, List.drop_left⟩
  · rintro ⟨⟨rest, h⟩, hd⟩
    rw [← h, List.drop_left] at hd
    rw [← h, hd]

variable {options : WebhookVerificationOptions} {host : WebhookHost Secret ν}

/-- An envelope is accepted when it is of version 1, its digest is that of its
payload, and the payload is fresh. -/
theorem verifyWebhookSignature_ok_iff {envelope : SignedWebhookEnvelope ν}
    {secret : Secret} {now : Int} {p : Json ν} :
    verifyWebhookSignature host (some envelope) secret options now = .ok p ↔
      envelope.payload = some p ∧ truthy p = true ∧ envelope.version = some "1" ∧
        (∃ hex, envelope.signature = some (SIGNATURE_PREFIX ++ String.ofList hex) ∧ hex ≠ [] ∧
          hexDecode hex = host.hmacSha256 secret (canonicalSerialize p)) ∧
        checkFreshness host options now p = .ok () := by
  have hend : ∀ q : Json ν, (checkFreshness host options now q >>= fun _ => pure q) = .ok p ↔
      q = p ∧ checkFreshness host options now p = .ok () := by
    intro q
    cases h : checkFreshness host options now q with
    | ok u =>
      constructor
      · rintro h'
        cases h'
        exact ⟨rfl, h⟩
      · rintro ⟨rfl, -⟩
        rfl
    | error e =>
      refine iff_of_false nofun ?_
      rintro ⟨rfl, h'⟩
      rw [h] at h'
      cases h'
  have hne : ∀ s : String, (s != "") = true ↔ s ≠ "" := by simp
  simp only [verifyWebhookSignature, orThrow_bind_eq_ok, throwIf_bind_eq_ok, hend, not_not,
    digest_of_computeSignature, hexDecode_hexEncode, Option.filter_eq_some_iff, hne,
    Option.some.injEq, exists_eq_left']
  constructor
  · rintro ⟨payload, ⟨hp, ht⟩, signature, ⟨hs, -⟩, version, ⟨hv, -⟩, rfl, hpre, hnil, hd, rfl, hf⟩
    have hsig := eq_prefix_append_iff.mpr ⟨hpre, rfl⟩
    exact ⟨hp, ht, hv, ⟨_, hsig ▸ hs, hnil, hd⟩, hf⟩
  · rintro ⟨hp, ht, hv, ⟨hex, hs, hnil, hd⟩, hf⟩
    generalize hsig : SIGNATURE_PREFIX ++ String.ofList hex = signature at hs
    obtain ⟨hpre, hdrop⟩ := eq_prefix_append_iff.mp hsig.symm
    rw [← hdrop] at hnil hd
    have hsome : signature ≠ "" := by
      rintro rfl
      exact hnil (by rw [String.toList_empty, List.drop_nil])
    exact ⟨p, ⟨hp, ht⟩, signature, ⟨hs, hsome⟩, "1", ⟨hv, by decide⟩, rfl, hpre, hnil, hd, rfl, hf⟩

/-! ## What a signature binds -/

/-- The envelope of version 1 for a payload, with a given signature. -/
def signedEnvelope (payload : Json ν) (signature : String) : SignedWebhookEnvelope ν where
  payload := some payload
  signature := some signature
  version := some "1"

/-- `P'` is accepted with the signature of `P` just when what is signed of the
two agrees, and `P'` is fresh. -/
theorem accepts_signature_iff {secret : Secret}
    (hmac : Function.Injective (host.hmacSha256 secret)) (hlen : ∀ m, host.hmacSha256 secret m ≠ [])
    {P P' p : Json ν} {now : Int} :
    verifyWebhookSignature host (some (signedEnvelope P' (computeSignature host P secret))) secret
        options now = .ok p ↔
      p = P' ∧ truthy P' = true ∧ namedPart P' = namedPart P ∧
        checkFreshness host options now P' = .ok () := by
  rw [verifyWebhookSignature_ok_iff]
  simp only [signedEnvelope, Option.some.injEq, true_and]
  constructor
  · rintro ⟨rfl, ht, ⟨hex, hs, -, hd⟩, hf⟩
    have hhex := digest_of_computeSignature host P secret
    rw [(eq_prefix_append_iff.mp hs).2] at hhex
    rw [hhex, hexDecode_hexEncode] at hd
    exact ⟨rfl, ht, stringifySorted_eq_iff.mp (hmac hd).symm, hf⟩
  · rintro ⟨rfl, ht, hn, hf⟩
    refine ⟨rfl, ht, ⟨_, rfl, ?_, ?_⟩, hf⟩
    · intro h
      exact hlen _ (hexEncode_injective (by rw [h]; rfl))
    · rw [hexDecode_hexEncode, canonicalSerialize, canonicalSerialize, stringifySorted_eq_iff.mpr hn]

/-- HMAC-SHA256 under the secret `whsec`, as it is on the payloads below, and
the time of their timestamp. -/
def whsecHost : WebhookHost String Int where
  hmacSha256 secret := hashFrom (if secret = "whsec" then
    [("\x7b\"event\":\"payroll.completed\",\"eventId\":\"evt_1\",\"timestamp\":\"2026-01-01T00:00:00.000Z\",\"totals\":\x7b\x7d\x7d",
        digest "e389f8593fbfe436e7b33eb8016212c29cbb05e62e1c017557f1090f6f1e9488"),
      ("\x7b\"event\":\"payroll.completed\",\"eventId\":\"evt_2\",\"timestamp\":\"2026-01-01T00:00:00.000Z\",\"totals\":\x7b\x7d\x7d",
        digest "d7b026d503cac27f4e1c0bf0b3885995fa98d40b4c8f5a8605f505e53c5ccb85")] else [])
  dateTime
    | .str s => if s = "2026-01-01T00:00:00.000Z" then some 1767225600000 else none
    | _ => none

theorem whsecHost_injective : Function.Injective (whsecHost.hmacSha256 "whsec") :=
  hashFrom_injective (by decide +kernel) (by decide +kernel)

theorem whsecHost_ne_nil (m : String) : whsecHost.hmacSha256 "whsec" m ≠ [] :=
  hashFrom_ne_nil (by decide +kernel) m

/-- An event with its totals in an object inside the payload. -/
def payrollCompleted (eventId amount : String) : List (String × Json Int) :=
  [("eventId", .str eventId), ("timestamp", .str "2026-01-01T00:00:00.000Z"),
    ("event", .str "payroll.completed"), ("totals", .obj [("amount", .str amount)])]

theorem namedPart_eventId : namedPart (.obj (payrollCompleted "evt_2" "100")) ≠
    namedPart (.obj (payrollCompleted "evt_1" "100")) := by
  decide +kernel

section Tolerance

/-- The options with a maximum age and a tolerance. -/
def toleranceOptions (maxAgeMs : Option Int) (toleranceMs : Int) : WebhookVerificationOptions where
  maxAgeMs := maxAgeMs
  toleranceMs := some toleranceMs

variable (host : WebhookHost Secret ν) (secret : Secret) (payload : Json ν) (maxAgeMs : Option Int)
  (now : Int)

/-- The time of the event is `eventTime`. -/
def HappenedAt (eventTime : Int) : Prop :=
  ∃ timestamp, (payloadProperty "timestamp" payload).filter truthy = some timestamp ∧
    host.dateTime timestamp = some eventTime

/-- The payload, under its own signature, is accepted. -/
def Accepts (toleranceMs : Int) : Prop :=
  verifyWebhookSignature host (some (signedEnvelope payload (computeSignature host payload secret)))
    secret (toleranceOptions maxAgeMs toleranceMs) now = .ok payload

/-- The event is within the age and tolerance limits. There are none when the
maximum age is zero. -/
def WithinLimits (toleranceMs : Int) : Prop :=
  0 < maxAgeMs.getD DEFAULT_MAX_AGE_MS →
    ∃ eventTime, HappenedAt host payload eventTime ∧
      now - eventTime ≤ maxAgeMs.getD DEFAULT_MAX_AGE_MS + toleranceMs ∧ eventTime - now ≤ toleranceMs

/-- Raising the tolerance from `t₁` to `t₂` rejects nothing, and at either the
limits are kept. -/
structure ToleranceRespected (t₁ t₂ : Int) : Prop where
  raised : Accepts host secret payload maxAgeMs now t₁ → Accepts host secret payload maxAgeMs now t₂
  lower : Accepts host secret payload maxAgeMs now t₁ ↔ WithinLimits host payload maxAgeMs now t₁
  upper : Accepts host secret payload maxAgeMs now t₂ ↔ WithinLimits host payload maxAgeMs now t₂

/-- The age differs from the maximum by more than the tolerance, or the event
is further ahead than the tolerance. -/
def ClearOfMaxAge (toleranceMs : Int) : Prop :=
  0 < maxAgeMs.getD DEFAULT_MAX_AGE_MS → ∀ eventTime, HappenedAt host payload eventTime →
    now - eventTime ≤ maxAgeMs.getD DEFAULT_MAX_AGE_MS - toleranceMs.natAbs ∨
      maxAgeMs.getD DEFAULT_MAX_AGE_MS + toleranceMs.natAbs < now - eventTime ∨
      toleranceMs < eventTime - now

variable {host secret payload maxAgeMs now}

theorem HappenedAt.unique {e e' : Int} (h : HappenedAt host payload e) (h' : HappenedAt host payload e') :
    e = e' := by
  obtain ⟨t, ht, he⟩ := h
  obtain ⟨t', ht', he'⟩ := h'
  rw [ht] at ht'
  cases ht'
  rw [he] at he'
  exact Option.some.inj he'

theorem checkFreshness_ok_iff {toleranceMs : Int} :
    checkFreshness host (toleranceOptions maxAgeMs toleranceMs) now payload = .ok () ↔
      (0 < maxAgeMs.getD DEFAULT_MAX_AGE_MS → ∃ eventTime, HappenedAt host payload eventTime ∧
        now - eventTime + toleranceMs ≤ maxAgeMs.getD DEFAULT_MAX_AGE_MS ∧ eventTime ≤ now + toleranceMs) := by
  simp only [checkFreshness, toleranceOptions, Option.getD_some, HappenedAt]
  by_cases hM : maxAgeMs.getD DEFAULT_MAX_AGE_MS > 0
  · simp only [hM, ↓reduceIte, true_imp_iff]
    cases ht : (payloadProperty "timestamp" payload).filter truthy with
    | none => simp
    | some timestamp =>
      cases he : host.dateTime timestamp with
      | none => simp [he]
      | some eventTime =>
        by_cases hage : now - eventTime + toleranceMs > maxAgeMs.getD DEFAULT_MAX_AGE_MS
        · simp [he, hage]
        · by_cases hfut : eventTime > now + toleranceMs
          · simp [he, hage, hfut]
          · simp only [he, hage, hfut, ↓reduceIte, true_iff]
            exact ⟨eventTime, ⟨_, rfl, he⟩, by omega, by omega⟩
  · simp only [hM, ↓reduceIte, false_imp_iff]

variable {fields : List (String × Json ν)}

/-- A signed payload is accepted when it is fresh. -/
theorem accepts_iff (hlen : ∀ m, host.hmacSha256 secret m ≠ []) {toleranceMs : Int} :
    Accepts host secret (.obj fields) maxAgeMs now toleranceMs ↔
      checkFreshness host (toleranceOptions maxAgeMs toleranceMs) now (.obj fields) = .ok () := by
  rw [Accepts, verifyWebhookSignature_ok_iff]
  simp only [signedEnvelope, truthy, true_and, and_iff_right_iff_imp]
  refine fun _ => ⟨_, rfl, fun h => ?_, hexDecode_hexEncode _⟩
  exact hlen _ (hexEncode_injective (by rw [h]; rfl))

/-- At one tolerance, the limits are kept just when the age is not about the
maximum. -/
theorem accepts_iff_withinLimits_iff (hlen : ∀ m, host.hmacSha256 secret m ≠ []) {t : Int} :
    (Accepts host secret (.obj fields) maxAgeMs now t ↔ WithinLimits host (.obj fields) maxAgeMs now t) ↔
      ClearOfMaxAge host (.obj fields) maxAgeMs now t := by
  rw [accepts_iff hlen, checkFreshness_ok_iff, WithinLimits, ClearOfMaxAge]
  generalize maxAgeMs.getD DEFAULT_MAX_AGE_MS = M
  by_cases hM : 0 < M
  · by_cases hdated : ∃ e, HappenedAt host (.obj fields) e
    · obtain ⟨e, he⟩ := hdated
      have hall : ∀ P : Int → Prop, (∃ e', HappenedAt host (.obj fields) e' ∧ P e') ↔ P e := by
        intro P
        constructor
        · rintro ⟨e', he', hP⟩
          rw [he.unique he']
          exact hP
        · exact fun hP => ⟨e, he, hP⟩
      have hcond : ∀ P : Int → Prop, (∀ e', HappenedAt host (.obj fields) e' → P e') ↔ P e :=
        fun P => ⟨fun h => h e he, fun hP e' he' => he.unique he' ▸ hP⟩
      simp only [hM, true_imp_iff, hall, hcond]
      omega
    · have hnone : ∀ P : Int → Prop, ¬ ∃ e', HappenedAt host (.obj fields) e' ∧ P e' := by
        intro P hexists
        obtain ⟨e', he', -⟩ := hexists
        exact hdated ⟨e', he'⟩
      simp only [hM, true_imp_iff, hnone, true_iff]
      exact fun e he => absurd ⟨e, he⟩ hdated
  · simp only [hM, false_imp_iff]

/-- Where the limits are kept, raising the tolerance rejects nothing. -/
theorem WithinLimits.mono {t₁ t₂ : Int} (ht : t₁ ≤ t₂) (h : WithinLimits host payload maxAgeMs now t₁) :
    WithinLimits host payload maxAgeMs now t₂ := by
  intro hM
  obtain ⟨e, he, hage, hahead⟩ := h hM
  exact ⟨e, he, by omega, by omega⟩

/-- The tolerance does what it is for just when, at both values, the age of the
event is not about the maximum. -/
theorem tolerance_respected_iff {fields : List (String × Json ν)}
    (hlen : ∀ m, host.hmacSha256 secret m ≠ []) {t₁ t₂ : Int} (ht : t₁ ≤ t₂) :
    ToleranceRespected host secret (.obj fields) maxAgeMs now t₁ t₂ ↔
      ClearOfMaxAge host (.obj fields) maxAgeMs now t₁ ∧ ClearOfMaxAge host (.obj fields) maxAgeMs now t₂ := by
  rw [← accepts_iff_withinLimits_iff hlen, ← accepts_iff_withinLimits_iff hlen]
  constructor
  · exact fun h => ⟨h.lower, h.upper⟩
  · rintro ⟨h₁, h₂⟩
    exact ⟨fun h => h₂.mpr ((h₁.mp h).mono ht), h₁, h₂⟩

end Tolerance

theorem payrollCompleted_happenedAt {e : Int} :
    HappenedAt whsecHost (.obj (payrollCompleted "evt_1" "100")) e ↔ e = 1767225600000 := by
  refine ⟨fun h => h.unique ⟨_, rfl, rfl⟩, ?_⟩
  rintro rfl
  exact ⟨_, rfl, rfl⟩

/-- One minute after the event, under the default maximum of five, tolerances
of none and of two minutes are respected. -/
theorem tolerance_respected_after_a_minute :
    ToleranceRespected whsecHost "whsec" (.obj (payrollCompleted "evt_1" "100")) none 1767225660000 0
      120000 := by
  refine (tolerance_respected_iff whsecHost_ne_nil (by decide)).mpr ⟨?_, ?_⟩ <;>
  · intro _ e he
    rw [payrollCompleted_happenedAt.mp he]
    decide

/-- Four minutes after it, it is accepted with none and expired with a
tolerance of two minutes. -/
theorem tolerance_expires_payload :
    (∀ m, whsecHost.hmacSha256 "whsec" m ≠ []) ∧
      Accepts whsecHost "whsec" (.obj (payrollCompleted "evt_1" "100")) none 1767225840000 0 ∧
      ¬ Accepts whsecHost "whsec" (.obj (payrollCompleted "evt_1" "100")) none 1767225840000 120000 := by
  refine ⟨whsecHost_ne_nil, (accepts_iff whsecHost_ne_nil).mpr rfl, fun h => ?_⟩
  obtain ⟨e, he, hage, -⟩ := checkFreshness_ok_iff.mp ((accepts_iff whsecHost_ne_nil).mp h) (by decide)
  rw [payrollCompleted_happenedAt.mp he] at hage
  revert hage
  decide

end ZkPayroll.Webhooks
