import ZkPayroll.Core.Errors

/-!
# Remediation of errors

`mapErrorToRemediation` of `remediation/mapper.ts` for a code and the audience
of SDK users, with the entries of `remediation/registry.ts`. The registry is a
plain object: the names that every object inherits are found in it, without
guidance.
-/

namespace ZkPayroll.Remediation

open ZkPayroll.Core

inductive RemediationCategory where
  | TREASURY
  | AUTHORIZATION
  | PROOF
  | POLICY
  | NETWORK
  | UNKNOWN
  deriving DecidableEq, Repr

structure AudienceGuidance where
  action : String
  selfServiceable : Bool
  deriving DecidableEq, Repr

/-- A `RemediationEntry`, with the guidance of SDK users. -/
structure RemediationEntry where
  code : String
  category : RemediationCategory
  summary : String
  guidance : AudienceGuidance

structure RemediationResult where
  code : String
  known : Bool
  category : RemediationCategory
  summary : String
  guidance : AudienceGuidance

/-- `REMEDIATION_REGISTRY`. -/
def remediationRegistry : List RemediationEntry :=
  [{ code := "INSUFFICIENT_FEE"
     category := .TREASURY
     summary := "The transaction fee was too low for current network conditions."
     guidance :=
      { action := "Retry with a higher fee via the client configuration. " ++
          "If this persists, contact your payroll administrator."
        selfServiceable := false } },
   { code := "WALLET_SIGNING_REJECTED"
     category := .AUTHORIZATION
     summary := "The signer declined to sign the transaction."
     guidance :=
      { action := "Approve the signature request in your wallet, or retry the operation."
        selfServiceable := true } },
   { code := "WALLET_NOT_CONNECTED"
     category := .AUTHORIZATION
     summary := "No wallet is connected to authorize the request."
     guidance := { action := "Connect your wallet and try again.", selfServiceable := true } },
   { code := "CONTRACT_REVERT"
     category := .AUTHORIZATION
     summary :=
      "The contract rejected the call, commonly due to insufficient permissions or invalid arguments."
     guidance :=
      { action := "This request cannot succeed with these inputs. " ++
          "Contact your payroll administrator with the transaction hash."
        selfServiceable := false } },
   { code := "PROOF_GENERATION_FAILED"
     category := .PROOF
     summary := "Zero-knowledge proof generation failed."
     guidance :=
      { action := "Retry the operation. If it fails repeatedly, contact support with the " ++
          "(non-sensitive) error code and timestamp."
        selfServiceable := false } },
   { code := "BATCH_VALIDATION_FAILED"
     category := .POLICY
     summary := "One or more entries in a payroll batch failed validation against policy rules."
     guidance :=
      { action := "Correct the highlighted fields in the payroll batch and resubmit."
        selfServiceable := true } },
   { code := "VALIDATION_ERROR"
     category := .POLICY
     summary := "Input parameters failed client-side validation."
     guidance :=
      { action := "Review your inputs against the reported field and try again."
        selfServiceable := true } },
   { code := "RPC_TIMEOUT"
     category := .NETWORK
     summary := "The Soroban RPC endpoint did not respond in time."
     guidance :=
      { action := "Wait a moment and retry — this is usually a transient network condition."
        selfServiceable := true } },
   { code := "NETWORK_ERROR"
     category := .NETWORK
     summary := "An underlying network request failed."
     guidance := { action := "Check your internet connection and retry.", selfServiceable := true } },
   { code := "RECONCILIATION_UNEXPECTED_ACTIVITY"
     category := .TREASURY
     summary := "On-chain activity was detected with no corresponding expected payroll outcome."
     guidance :=
      { action := "Contact your payroll administrator immediately; do not retry the payroll run."
        selfServiceable := false } },
   { code := "SDK_OPERATION_VALIDATION_FAILED"
     category := .POLICY
     summary := "The operation was rejected by local validation before any network call was made."
     guidance :=
      { action := "Correct the operation inputs per the failure message and retry. " ++
          "No transaction was submitted, so retrying is safe."
        selfServiceable := true } }]

def fallbackRemediationEntry (code : String) : RemediationEntry where
  code := code
  category := .UNKNOWN
  summary := "An unrecognized error occurred."
  guidance :=
    { action := "Retry the operation. If it continues to fail, contact support with the error code shown."
      selfServiceable := false }

/-- The properties of `Object.prototype`. -/
def inheritedNames : List String :=
  ["constructor", "__defineGetter__", "__defineSetter__", "hasOwnProperty", "__lookupGetter__",
    "__lookupSetter__", "isPrototypeOf", "propertyIsEnumerable", "toString", "valueOf", "__proto__",
    "toLocaleString"]

/-- `entry.guidance[audience]` of an entry without guidance. -/
def noGuidanceError : SdkError where
  kind := .error
  name := "TypeError"
  message := "Cannot read properties of undefined (reading 'sdk-user')"

/-- `mapErrorToRemediation(code, "sdk-user")`. -/
def mapErrorToRemediation (code : String) : Except SdkError RemediationResult :=
  match remediationRegistry.find? fun entry => entry.code == code with
  | some entry =>
    .ok { code := entry.code, known := true, category := entry.category, summary := entry.summary,
          guidance := entry.guidance }
  | none =>
    if code ∈ inheritedNames then .error noGuidanceError
    else
      let fallback := fallbackRemediationEntry code
      .ok { code := fallback.code, known := false, category := fallback.category,
            summary := fallback.summary, guidance := fallback.guidance }

/-- There is guidance for every code but the inherited names. -/
theorem exists_remediation_iff {code : String} :
    (∃ result, mapErrorToRemediation code = .ok result) ↔ code ∉ inheritedNames := by
  unfold mapErrorToRemediation
  split
  · rename_i entry hfind
    refine iff_of_true ⟨_, rfl⟩ fun hin => ?_
    have hcode : entry.code = code := by simpa using List.find?_some hfind
    have hentry : entry ∈ remediationRegistry := List.mem_of_find?_eq_some hfind
    have hall : (remediationRegistry.all fun entry => !inheritedNames.contains entry.code) = true := by
      decide
    have := List.all_eq_true.mp hall entry hentry
    rw [hcode] at this
    simp [hin] at this
  · split
    · rename_i hin
      simp [hin]
    · rename_i hin
      exact iff_of_true ⟨_, rfl⟩ hin

end ZkPayroll.Remediation
