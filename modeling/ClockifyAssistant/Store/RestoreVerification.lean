import Mathlib.Data.List.Sort
import ClockifyAssistant.Clockify.ServiceUrl
import ClockifyAssistant.Lib.JsonText
import ClockifyAssistant.Schema

/-!
The verification of a restored database on a private clone of it, and the evidence that it
returns. Timings are not part of the evidence here.
-/
namespace ClockifyAssistant.RestoreVerification

open Lib

inductive VerificationCheck
  | checksum
  | metadata
  | integrity
  | schema
  | installation
  | tokenBackedRead
  | applicationReadiness
  deriving DecidableEq

structure RestoreVerificationError where
  check : VerificationCheck
  code : String
  httpStatus : Option Nat

inductive Failure
  | verification (error : RestoreVerificationError)
  /-- Another error, which the driver of the database throws. -/
  | thrown

abbrev Verify (α : Type) := Except Failure α

def fail {α : Type} (check : VerificationCheck) (code : String) : Verify α :=
  .error (.verification ⟨check, code, none⟩)

def require (condition : Bool) (check : VerificationCheck) (code : String) : Verify Unit :=
  if condition then .ok () else fail check code

def expect {α : Type} (value : Option α) (check : VerificationCheck) (code : String) : Verify α :=
  match value with
  | some value => .ok value
  | none => fail check code

/-! The runtime and what is outside of the process. -/

inductive FetchOutcome
  | response (status : Nat) (body : Option JsonValue)
  | timedOut
  | rejected

structure Request where
  url : String
  token : String

structure Runtime where
  dateParse : String → Option Int
  toISOString : Int → String
  parseJson : String → Option JsonValue
  sha256 : String → String
  decryptSecret : String → String → Option String
  parseUrl : String → Option Url
  /-- The answer to the request after so many earlier ones. -/
  fetchImpl : Nat → Request → FetchOutcome

structure InstallationRow where
  workspaceId : String
  addonTokenCiphertext : String
  apiUrl : Option String
  backendUrl : Option String
  updatedAt : Option String
  status : String

structure RestoredDatabase where
  integrityCheck : String
  userVersion : Int
  tables : List (String × List String)
  installations : List InstallationRow

structure ReadinessOutcome where
  proof : Verify JsonValue
  migrated : Option RestoredDatabase

structure RestoreOptions where
  encryptionKey : String
  previousEncryptionKey : Option String
  releaseSha : String
  releaseBuildHash : String
  drillStartedAt : Option String
  incidentAt : Option String
  applicationReadinessProbe : Option ReadinessOutcome

structure RestoreFiles where
  cloned : Bool
  checksumLine : Option String
  rawMetadata : Option String
  candidate : Option (String × Nat)
  database : Option RestoredDatabase
  cloneRemoved : Bool

/-! Checksum and metadata. -/

def isLowerHex (c : Char) : Bool := c.isDigit || ('a' ≤ c && c ≤ 'f')

def sha256Pattern (text : String) : Bool :=
  text.toList.length == 64 && text.toList.all isLowerHex

def releaseShaPattern (text : String) : Bool :=
  (text.toList.length == 40 || text.toList.length == 64) && text.toList.all isLowerHex

/-- `text.trim().split(/\s+/u)[0]` -/
def firstWord (text : String) : String :=
  String.ofList ((text.toList.dropWhile Lib.isTrimmed).takeWhile fun c => !Lib.isTrimmed c)

def asRecord : JsonValue → Option JsonValue
  | .obj fields => some (.obj fields)
  | _ => none

def isNumber (value : Option JsonValue) (expected : Rat) : Bool :=
  match value with
  | some (.num number) => number == expected
  | _ => false

def isText (value : Option JsonValue) (expected : String) : Bool :=
  match value with
  | some (.str text) => text == expected
  | _ => false

structure BackupMetadata where
  dataAsOf : String
  createdAt : String
  bytes : Nat
  sha256 : String

/-- A number of bytes that `Number.isSafeInteger` accepts. -/
def safeBytes : Option JsonValue → Option Nat
  | some (.num number) =>
      if number.isInt && 0 ≤ number.num && number.num ≤ maxSafeInteger then
        some number.num.toNat
      else none
  | _ => none

section Verification

variable (rt : Runtime)

def parseIso (value : Option JsonValue) : Option String :=
  match value with
  | some (.str text) =>
      match rt.dateParse text with
      | some timestamp => if rt.toISOString timestamp = text then some text else none
      | none => none
  | _ => none

def metadataShape (record : JsonValue) : Option BackupMetadata := do
  let dataAsOf ← parseIso rt (record.property "dataAsOf")
  let createdAt ← parseIso rt (record.property "createdAt")
  let bytes ← safeBytes (record.property "bytes")
  let sha256 ← (record.property "sha256").bind JsonValue.text?
  if sha256Pattern sha256 then some { dataAsOf, createdAt, bytes, sha256 } else none

/-- Both texts are dates when they are compared. -/
def laterThan (a b : String) : Bool :=
  match rt.dateParse a, rt.dateParse b with
  | some a, some b => b < a
  | _, _ => false

def verifyChecksumAndMetadata (files : RestoreFiles) : Verify (String × Nat × BackupMetadata) := do
  let checksumLine ← expect files.checksumLine .checksum "sidecar_read_failed"
  let rawMetadata ← expect files.rawMetadata .checksum "sidecar_read_failed"
  let expectedDigest := firstWord checksumLine
  require (sha256Pattern expectedDigest) .checksum "invalid_sidecar"
  let (digest, bytes) ← expect files.candidate .checksum "candidate_read_failed"
  require (digest == expectedDigest) .checksum "checksum_mismatch"
  let parsed ← expect (rt.parseJson rawMetadata) .metadata "invalid_json"
  let record ← expect ((asRecord parsed).filter fun record =>
    isNumber (record.property "format") 2) .metadata "stale_metadata"
  let metadata ← expect (metadataShape rt record) .metadata "invalid_shape"
  require (!laterThan rt metadata.dataAsOf metadata.createdAt) .metadata "invalid_timeline"
  require (metadata.sha256 == digest && metadata.bytes == bytes) .metadata "candidate_mismatch"
  return (digest, bytes, metadata)

/-! The schema. -/

def latestSchemaVersion : Int := 13

def minSupportedRestoreSourceSchemaVersion : Int := 7

def requiredSchema : List (String × List String) :=
  [("installations", ["workspace_id", "addon_token_ciphertext", "api_url", "backend_url",
      "status", "generation", "lifecycle_issued_at", "deletion_started_at"]),
    ("installation_attestations", ["workspace_id", "workspace_sha256",
      "installation_generation", "token_fingerprint_sha256", "release_sha",
      "release_build_hash", "server_artifact_sha256", "source_relationship",
      "source_binding_sha256", "manifest_sha256", "installed_at"]),
    ("retired_installation_tokens", ["token_fingerprint_sha256", "retired_at"]),
    ("lifecycle_authority_watermarks", ["workspace_fingerprint_sha256", "lifecycle_issued_at",
      "authority_state", "installation_generation", "recorded_at", "expires_at"]),
    ("pending_confirmations", ["operation_id", "operation_hash", "nonce_hash",
      "operation_json", "agent_state_json"]),
    ("operation_runs", ["id", "workspace_id", "status", "operation_hash"]),
    ("operation_steps", ["operation_id", "status", "queued_at", "dispatched_at"]),
    ("intent_capabilities", ["capability_hash", "capability_json"]),
    ("intent_capability_usage", ["capability_id"]),
    ("artifacts", []),
    ("retention_runs", [])]

def sourceRequiredSchema : List (String × List String) :=
  [("installations", ["addon_token_ciphertext", "api_url", "backend_url", "status"])]

def RestoredDatabase.hasColumns (db : RestoredDatabase) (required : String × List String) : Bool :=
  match db.tables.lookup required.1 with
  | none => false
  | some columns => required.2.all columns.contains

def assertSchema (db : RestoredDatabase) (expectedVersion : Int)
    (required : List (String × List String)) (mismatchCode : String) : Verify Unit := do
  require (db.userVersion == expectedVersion) .schema mismatchCode
  require (required.all db.hasColumns) .schema mismatchCode

def assertSupportedSourceSchema (db : RestoredDatabase) : Verify Int := do
  require (minSupportedRestoreSourceSchemaVersion ≤ db.userVersion &&
    db.userVersion ≤ latestSchemaVersion) .schema "schema_version_mismatch"
  assertSchema db db.userVersion sourceRequiredSchema "source_schema_incompatible"
  return db.userVersion

def verifyMigratedClone (migrated : Option RestoredDatabase) : Verify Unit := do
  let db ← expect migrated .schema "post_migration_database_open_failed"
  require (db.integrityCheck == "ok") .integrity "post_migration_integrity_failed"
  assertSchema db latestSchemaVersion requiredSchema "post_migration_schema_mismatch"

/-! The installations. -/

/-- `ORDER BY updated_at DESC, workspace_id ASC`; a row without a date is behind the others. -/
def rowBefore (a b : InstallationRow) : Bool :=
  match a.updatedAt, b.updatedAt with
  | some x, some y => y < x || (x == y && a.workspaceId ≤ b.workspaceId)
  | some _, none => true
  | none, some _ => false
  | none, none => a.workspaceId ≤ b.workspaceId

def activeRows (db : RestoredDatabase) : List InstallationRow :=
  (db.installations.filter fun row => row.status == "active").insertionSort
    fun a b => rowBefore a b = true

def apiBaseOf (row : InstallationRow) : Option String :=
  resolveClockifyApiBase rt.parseUrl row.apiUrl row.backendUrl

structure ProbeCandidate where
  workspaceSha256 : String
  token : String
  apiBase : String

structure ReadInstallation where
  activeCount : Nat
  token : String
  apiBase : String
  all : List ProbeCandidate

/-- A row whose service URL is not usable is left out. -/
def candidateOf (row : InstallationRow) : Option ProbeCandidate :=
  match apiBaseOf rt row with
  | some apiBase => some {
      workspaceSha256 := rt.sha256 row.workspaceId
      token := row.addonTokenCiphertext
      apiBase }
  | none => none

/-- The driver refuses the selection of a column that is not there. -/
def readInstallation (db : RestoredDatabase) : Verify ReadInstallation :=
  if db.hasColumns ("installations", ["workspace_id", "updated_at"]) then
    match activeRows db with
    | [] => fail .installation "no_active_installation"
    | row :: rows =>
        match apiBaseOf rt row with
        | none => fail .installation "invalid_service_url"
        | some apiBase => .ok {
            activeCount := (db.installations.filter fun row => row.status == "active").length
            token := row.addonTokenCiphertext
            apiBase
            all := (row :: rows).filterMap (candidateOf rt) }
  else .error .thrown

def decryptInstallationToken (options : RestoreOptions) (ciphertext : String) : Verify String :=
  match rt.decryptSecret ciphertext options.encryptionKey with
  | some token => .ok token
  | none =>
      expect (options.previousEncryptionKey.bind (rt.decryptSecret ciphertext))
        .installation "token_decryption_failed"

inductive ProbeStatus
  | status (httpStatus : Nat)
  | decryptionFailed
  | requestFailed
  | timeout
  deriving DecidableEq

structure ProbedInstallation where
  workspaceSha256 : String
  httpStatus : ProbeStatus
  primary : Bool
  deriving DecidableEq

def probeInstallation (options : RestoreOptions) (calls : Nat) (candidate : ProbeCandidate) :
    ProbeStatus × Nat :=
  match decryptInstallationToken rt options candidate.token with
  | .error _ => (.decryptionFailed, calls)
  | .ok token =>
      match rt.fetchImpl calls ⟨candidate.apiBase ++ "/user", token⟩ with
      | .response status _ => (.status status, calls + 1)
      | .timedOut => (.timeout, calls + 1)
      | .rejected => (.requestFailed, calls + 1)

def probeAll (options : RestoreOptions) : Nat → List ProbeCandidate → List ProbedInstallation
  | _, [] => []
  | calls, candidate :: rest =>
      let (httpStatus, calls) := probeInstallation rt options calls candidate
      { workspaceSha256 := candidate.workspaceSha256, httpStatus, primary := false } ::
        probeAll options calls rest

def userId (body : Option JsonValue) : Option String :=
  ((body.bind asRecord).bind fun user => (user.property "id").bind JsonValue.text?).filter
    fun id => id != ""

def tokenBackedRead (calls : Nat) (apiBase token : String) : Verify Unit :=
  match rt.fetchImpl calls ⟨apiBase ++ "/user", token⟩ with
  | .timedOut => fail .tokenBackedRead "timeout"
  | .rejected => fail .tokenBackedRead "request_failed"
  | .response status body =>
      if status ≠ 200 then .error (.verification ⟨.tokenBackedRead, "http_status", some status⟩)
      else require (userId body).isSome .tokenBackedRead "malformed_response"

/-! Readiness and recovery. -/

structure ReadinessProof where
  releaseSha : String
  releaseBuildHash : String
  serverArtifactSha256 : String
  readinessConfirmedAt : String
  deriving DecidableEq

def readinessShape (record : JsonValue) : Option ReadinessProof := do
  let shutdown ← (record.property "shutdownVerification").bind asRecord
  let serverArtifactSha256 ← (record.property "serverArtifactSha256").bind JsonValue.text?
  let readinessConfirmedAt ← parseIso rt (record.property "readinessConfirmedAt")
  let elapsedMs ← (record.property "elapsedMs").bind JsonValue.number?
  if isText (record.property "endpoint") "GET /health" &&
      isNumber (record.property "httpStatus") 200 &&
      isText (record.property "startupInitialization") "production" &&
      isText (record.property "serverArtifact") "dist/server/server.js" &&
      isText (record.property "portBinding") "child_ephemeral_ipc" &&
      sha256Pattern serverArtifactSha256 && 0 ≤ elapsedMs && elapsedMs ≤ 120000 &&
      isNumber (shutdown.property "childExitCode") 0 &&
      isText (shutdown.property "databaseIntegrity") "ok" &&
      isText (shutdown.property "writerLock") "available" then
    some {
      releaseSha := ((record.property "releaseSha").bind JsonValue.text?).getD ""
      releaseBuildHash := ((record.property "releaseBuildHash").bind JsonValue.text?).getD ""
      serverArtifactSha256
      readinessConfirmedAt }
  else none

/-- Only an error of this check is passed on. -/
def probeFailure : Failure → Failure
  | .verification error =>
      if error.check = .applicationReadiness then .verification error
      else .verification ⟨.applicationReadiness, "readiness_probe_failed", none⟩
  | .thrown => .verification ⟨.applicationReadiness, "readiness_probe_failed", none⟩

-- A release identity that is not text is the empty one, which no option is.
def verifyApplicationReadiness (options : RestoreOptions) (probe : ReadinessOutcome) :
    Verify ReadinessProof := do
  let proof ← probe.proof.mapError probeFailure
  let readiness ← expect ((asRecord proof).bind (readinessShape rt))
    .applicationReadiness "invalid_readiness_proof"
  require (readiness.releaseSha == options.releaseSha &&
    readiness.releaseBuildHash == options.releaseBuildHash)
    .applicationReadiness "release_identity_mismatch"
  return readiness

structure RecoveryEvidence where
  drillStartedAt : String
  incidentAt : String
  dataAsOf : String
  backupCreatedAt : String
  readinessConfirmedAt : String
  rtoMs : Int
  rpoMs : Int
  deriving DecidableEq

def elapsedBetween (start finish : String) : Option Int := do
  let start ← rt.dateParse start
  let finish ← rt.dateParse finish
  if 0 ≤ finish - start then some (finish - start) else none

def recoveryEvidence (options : RestoreOptions) (metadata : BackupMetadata)
    (readinessConfirmedAt : String) : Verify (Option RecoveryEvidence) :=
  if options.drillStartedAt.isNone && options.incidentAt.isNone then .ok none
  else do
    let drillStartedAt ← expect (parseIso rt (options.drillStartedAt.map .str)) .metadata
      "invalid_recovery_timestamps"
    let incidentAt ← expect (parseIso rt (options.incidentAt.map .str)) .metadata
      "invalid_recovery_timestamps"
    let readinessAt ← expect (parseIso rt (some (.str readinessConfirmedAt)))
      .applicationReadiness "invalid_readiness_proof"
    let rtoMs ← expect (elapsedBetween rt drillStartedAt readinessAt) .metadata
      "invalid_recovery_timestamps"
    let rpoMs ← expect (elapsedBetween rt metadata.dataAsOf incidentAt) .metadata
      "invalid_recovery_timestamps"
    return some {
      drillStartedAt
      incidentAt
      dataAsOf := metadata.dataAsOf
      backupCreatedAt := metadata.createdAt
      readinessConfirmedAt := readinessAt
      rtoMs
      rpoMs }

/-! The verification. -/

structure RestoreVerificationEvidence where
  bytes : Nat
  digest : String
  dataAsOf : String
  backupCreatedAt : String
  sourceUserVersion : Int
  migrationRequired : Bool
  activeCount : Nat
  probed : List ProbedInstallation
  readiness : ReadinessProof
  recovery : Option RecoveryEvidence
  deriving DecidableEq

def verifyStatically (options : RestoreOptions) (database : Option RestoredDatabase) :
    Verify (Int × ReadInstallation × List ProbedInstallation) := do
  let db ← expect database .integrity "database_open_failed"
  require (db.integrityCheck == "ok") .integrity "integrity_check_failed"
  let sourceUserVersion ← assertSupportedSourceSchema db
  let installation ← readInstallation rt db
  let decryptedToken ← decryptInstallationToken rt options installation.token
  tokenBackedRead rt 0 installation.apiBase decryptedToken
  let first : ProbedInstallation := {
    workspaceSha256 := (installation.all.head?.map ProbeCandidate.workspaceSha256).getD ""
    httpStatus := .status 200
    primary := true }
  return (sourceUserVersion, installation,
    first :: probeAll rt options 1 (installation.all.drop 1))

def verifyClone (options : RestoreOptions) (files : RestoreFiles) (probe : ReadinessOutcome) :
    Verify RestoreVerificationEvidence := do
  let (digest, bytes, metadata) ← verifyChecksumAndMetadata rt files
  let (sourceUserVersion, installation, probed) ← verifyStatically rt options files.database
  let readiness ← verifyApplicationReadiness rt options probe
  verifyMigratedClone probe.migrated
  let recovery ← recoveryEvidence rt options metadata readiness.readinessConfirmedAt
  return {
    bytes
    digest
    dataAsOf := metadata.dataAsOf
    backupCreatedAt := metadata.createdAt
    sourceUserVersion
    migrationRequired := sourceUserVersion != latestSchemaVersion
    activeCount := installation.activeCount
    probed
    readiness
    recovery }

def verifyRestoredDatabase (options : RestoreOptions) (files : RestoreFiles) :
    Verify RestoreVerificationEvidence := do
  let probe ← expect options.applicationReadinessProbe .applicationReadiness
    "readiness_probe_required"
  require (releaseShaPattern options.releaseSha && sha256Pattern options.releaseBuildHash)
    .applicationReadiness "release_identity_required"
  require files.cloned .checksum "candidate_clone_failed"
  let result := verifyClone rt options files probe
  -- A failure of the removal replaces whatever the verification gave.
  if files.cloneRemoved then result else fail .checksum "clone_cleanup_failed"

end Verification

end ClockifyAssistant.RestoreVerification
