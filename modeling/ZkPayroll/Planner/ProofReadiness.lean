import Mathlib.Algebra.Order.Ring.Int
import Mathlib.Data.Rat.Floor
import ZkPayroll.Framework.Text
import ZkPayroll.Framework.JsArithmetic

/-!
# Readiness of the proof provider

`checkProofReadiness` of `proof-readiness/checker.ts`: the artifacts, the input,
the settings and the mode of a proof are checked one by one, and the provider is
ready when none of the four checks fails. Of the values of the input only their
types are read.
-/

namespace ZkPayroll.Planner

open Framework

/-! ## Data -/

/-- The outcome of a check. -/
inductive CheckStatus where
  | pass
  | warn
  | fail
  deriving DecidableEq

inductive ProofReadinessCheckId where
  | ARTIFACT_AVAILABILITY
  | INPUT_SHAPE
  | ENVIRONMENT_SETTINGS
  | PROOF_MODE
  deriving DecidableEq

structure ProofReadinessCheck where
  id : ProofReadinessCheckId
  label : String
  status : CheckStatus
  message : String
  remediation : Option String := none

structure ProofReadinessResult where
  ready : Bool
  checks : List ProofReadinessCheck
  failures : List ProofReadinessCheck

/-- The two artifacts. -/
inductive ArtifactKind where
  | wasm
  | zkey
  deriving DecidableEq

def ArtifactKind.name : ArtifactKind → String
  | .wasm => "wasm"
  | .zkey => "zkey"

/-- Where a generator finds an artifact. -/
inductive ArtifactSource where
  | remote (url : String)
  | local (path : String)

/-- The fields of `ProofGeneratorConfig` that are checked, those of the two
artifacts as one function of the artifact. -/
structure ProofGeneratorConfig where
  url : ArtifactKind → String
  source : ArtifactKind → Option ArtifactSource := fun _ => none
  expectedHash : ArtifactKind → Option String := fun _ => none
  artifactCacheTTL : Option (JsNumber ℚ) := none
  maxConcurrency : Option (JsNumber ℚ) := none

inductive ExpectedFieldType where
  | string
  | number
  | bigint
  | boolean
  | object
  | array
  deriving DecidableEq

def ExpectedFieldType.name : ExpectedFieldType → String
  | .string => "string"
  | .number => "number"
  | .bigint => "bigint"
  | .boolean => "boolean"
  | .object => "object"
  | .array => "array"

/-- `actualType(value)`. -/
inductive ActualType where
  | expected (t : ExpectedFieldType)
  | null
  /-- Also that of a function or a symbol. -/
  | undefined
  deriving DecidableEq

def ActualType.name : ActualType → String
  | .expected t => t.name
  | .null => "null"
  | .undefined => "undefined"

/-- The input of the proof, with the types of its own properties. -/
inductive ProofInput where
  /-- `undefined` or `null`. -/
  | absent
  | record (fields : List (String × ActualType))
  /-- An array, or a value that is no object. -/
  | other (t : ActualType)

structure RequiredInputField where
  name : String
  type : Option ExpectedFieldType := none

structure ProofReadinessInput where
  proofConfig : ProofGeneratorConfig
  input : ProofInput
  mode : Option String := none

structure ProofReadinessOptions where
  requiredInputFields : Option (List RequiredInputField) := none
  supportedModes : Option (List String) := none
  checkArtifactFiles : Option Bool := none

/-- What `fs.statSync` tells of a path. -/
inductive FileStat where
  | found (isFile : Bool) (size : Nat)
  /-- It throws, with the `code` of the error. -/
  | failed (code : Option String)

/-- What the checks use of the platform. -/
structure ReadinessHost where
  /-- `new URL(s).pathname`; `none` where the constructor throws. -/
  urlPathname : String → Option String
  /-- `none` where `fs` cannot be loaded. -/
  statSync : Option (String → FileStat)
  toLowerCase : String → String

def SUPPORTED_PROOF_MODES : List String := ["groth16"]

/-! ## The checks -/

def resolveArtifactLocation (config : ProofGeneratorConfig) (kind : ArtifactKind) : String :=
  match config.source kind with
  | some (.local path) => path
  | some (.remote url) => url
  | none => config.url kind

/-- `/^https?:\/\//i.test(location)`. -/
def isRemote (location : String) : Bool :=
  (dropPrefixInsensitive "http://".toList location.toList).isSome ||
    (dropPrefixInsensitive "https://".toList location.toList).isSome

/-- What the file system says against a file. -/
def fileProblems (kind : ArtifactKind) : FileStat → List String
  | .found isFile size =>
    if isFile = false then [s!"{kind.name} artifact path is not a file"]
    else if size = 0 then [s!"{kind.name} artifact file is empty (0 bytes)"]
    else []
  | .failed code =>
    if code = some "EACCES" then [s!"{kind.name} artifact file is not readable (permission denied)"]
    else [s!"{kind.name} artifact file was not found"]

/-- The path that a location stands for; `none` where its `file://` URI cannot
be read. -/
def localPath (host : ReadinessHost) (location : String) : Option String :=
  if "file://".toList.isPrefixOf location.toList then host.urlPathname location else some location

/-- The problems of one artifact. -/
def artifactProblems (host : ReadinessHost) (config : ProofGeneratorConfig) (checkFiles : Bool)
    (kind : ArtifactKind) : List String :=
  let location := resolveArtifactLocation config kind
  if trim location = "" then [s!"{kind.name} artifact location is not configured"]
  else if isRemote location then
    if (host.urlPathname location).isNone then [s!"{kind.name} artifact URL is malformed"] else []
  else
    match localPath host location with
    | none => [s!"{kind.name} artifact file:// path is malformed"]
    | some filePath =>
      let extension := if ("." ++ kind.name).toList.isSuffixOf (host.toLowerCase filePath).toList then []
        else [s!"{kind.name} artifact does not have a .{kind.name} extension"]
      match checkFiles, host.statSync with
      | true, some statSync => extension ++ fileProblems kind (statSync filePath)
      | _, _ => extension

def checkArtifactAvailability (host : ReadinessHost) (config : ProofGeneratorConfig) (checkFiles : Bool) :
    ProofReadinessCheck :=
  let problems := [ArtifactKind.wasm, .zkey].flatMap (artifactProblems host config checkFiles)
  if problems = [] then
    { id := .ARTIFACT_AVAILABILITY
      label := "Circuit artifact availability"
      status := .pass
      message := "Circuit artifacts (.wasm and .zkey) are configured and available." }
  else
    { id := .ARTIFACT_AVAILABILITY
      label := "Circuit artifact availability"
      status := .fail
      message := "Circuit artifacts are not ready: " ++ "; ".intercalate problems ++ "."
      remediation := some ("Compile the circuit and point wasmUrl/zkeyUrl (or wasmSource/zkeySource) " ++
        "at readable, non-empty .wasm and .zkey files, or a valid HTTP(S) URL.") }

/-- The fields that are not there, or are `undefined` or `null`. -/
def missingFields (fields : List (String × ActualType)) (required : List RequiredInputField) : List String :=
  (required.filter fun field =>
    match fields.lookup field.name with
    | some (.expected _) => false
    | _ => true).map fun field => field.name

/-- The fields that are of another type than is required. -/
def mistypedFields (fields : List (String × ActualType)) (required : List RequiredInputField) : List String :=
  required.filterMap fun field =>
    match fields.lookup field.name, field.type with
    | some (.expected got), some type =>
      if got = type then none else some s!"{field.name} (expected {type.name}, got {got.name})"
    | _, _ => none

def checkInputShape (input : ProofInput) (requiredFields : Option (List RequiredInputField)) :
    ProofReadinessCheck :=
  let failed (message remediation : String) : ProofReadinessCheck :=
    { id := .INPUT_SHAPE, label := "Proof input shape", status := .fail, message
      remediation := some remediation }
  match input with
  | .absent =>
    failed "No proof input (witness) was provided." "Supply the witness object required by the circuit."
  | .other t =>
    failed s!"Proof input must be an object but was of type \"{t.name}\"."
      "Provide the witness as a plain object keyed by signal name."
  | .record fields =>
    let missing := missingFields fields (requiredFields.getD [])
    let mistyped := mistypedFields fields (requiredFields.getD [])
    if missing = [] ∧ mistyped = [] then
      { id := .INPUT_SHAPE
        label := "Proof input shape"
        status := .pass
        message := "Proof input contains all required fields with the expected types." }
    else
      let parts := (if missing = [] then [] else ["missing field(s): " ++ ", ".intercalate missing]) ++
        (if mistyped = [] then [] else ["type mismatch on " ++ ", ".intercalate mistyped])
      failed ("Proof input is invalid — " ++ "; ".intercalate parts ++ ".")
        ("Populate the listed fields with values of the expected types. " ++
          "Field values are intentionally omitted from this message to avoid leaking secrets.")

/-- `/^[0-9a-f]{64}$/i.test(hash)`. -/
def isHashPattern (hash : String) : Bool :=
  hash.length = 64 && hash.toList.all fun c =>
    c.isDigit || ('a' ≤ lowerAscii c && lowerAscii c ≤ 'f')

/-- What is wrong with the settings. -/
def settingsProblems (config : ProofGeneratorConfig) : List String :=
  (if resolveArtifactLocation config .wasm = "" ∧ resolveArtifactLocation config .zkey = "" then
      ["no artifact sources or URLs are configured"] else []) ++
    (if ∃ n ∈ config.maxConcurrency, ∀ k ∈ n.toInteger, k < 1 then
      ["maxConcurrency must be a positive integer"] else []) ++
    (if ∃ ttl ∈ config.artifactCacheTTL, JsNumber.lt ttl (.finite 0) then
      ["artifactCacheTTL must be a non-negative number"] else []) ++
    (if ∃ hash ∈ config.expectedHash .wasm, isHashPattern hash = false then
      ["expectedWasmHash is not a 64-character hex SHA-256 digest"] else []) ++
    (if ∃ hash ∈ config.expectedHash .zkey, isHashPattern hash = false then
      ["expectedZkeyHash is not a 64-character hex SHA-256 digest"] else [])

def checkEnvironmentSettings (config : ProofGeneratorConfig) : ProofReadinessCheck :=
  let problems := settingsProblems config
  if problems = [] then
    { id := .ENVIRONMENT_SETTINGS
      label := "Environment & config settings"
      status := .pass
      message := "Environment and configuration settings are valid." }
  else
    { id := .ENVIRONMENT_SETTINGS
      label := "Environment & config settings"
      status := .fail
      message := "Configuration settings are invalid: " ++ "; ".intercalate problems ++ "."
      remediation := some ("Correct the listed settings. maxConcurrency must be >= 1, artifactCacheTTL " ++
        ">= 0, and expected hashes must be 64-character hex SHA-256 digests.") }

/-- The modes are not empty, so `supportedModes[0]` is one of them. -/
def checkProofMode (mode : Option String) (supportedModes : List String) : ProofReadinessCheck :=
  let requested := mode.getD (supportedModes.headD "")
  if requested ∈ supportedModes then
    { id := .PROOF_MODE
      label := "Proof mode support"
      status := .pass
      message := s!"Proof mode \"{requested}\" is supported." }
  else
    { id := .PROOF_MODE
      label := "Proof mode support"
      status := .fail
      message := s!"Proof mode \"{requested}\" is not supported. " ++
        "Supported modes: " ++ ", ".intercalate supportedModes ++ "."
      remediation := some ("Set mode to one of: " ++ ", ".intercalate supportedModes ++ ".") }

def checkProofReadiness (host : ReadinessHost) (subject : ProofReadinessInput)
    (options : ProofReadinessOptions) : ProofReadinessResult :=
  let supportedModes := (options.supportedModes.filter fun modes => modes ≠ []).getD SUPPORTED_PROOF_MODES
  let checkFiles := options.checkArtifactFiles.getD true
  let checks :=
    [checkArtifactAvailability host subject.proofConfig checkFiles,
      checkInputShape subject.input options.requiredInputFields,
      checkEnvironmentSettings subject.proofConfig,
      checkProofMode subject.mode supportedModes]
  let failures := checks.filter fun c => c.status = .fail
  { ready := failures = [], checks, failures }

end ZkPayroll.Planner
