import ClockifyAssistant.Database

/-!
Installations: one row per workspace with its sealed add-on token, the ledger
of retired tokens and the lifecycle watermarks that outlive an erased row.
Every lifecycle change is ordered by the issue time of its callback against the
recorded authority. The generations handed out are also kept in the memory of
the process, which a restart empties. The columns of a row that no lifecycle
function reads are left out.
-/
namespace ClockifyAssistant

open Lib Txn

abbrev AddonToken := String
abbrev EpochSeconds := Nat

/-- SHA-256 under a domain prefix, free of collisions: a digest is what was hashed. -/
inductive Digest
  | installationToken (token : AddonToken)
  | retiredInstallationToken (token : AddonToken)
  | lifecycleWorkspace (workspaceId : WorkspaceId)
  deriving DecidableEq

def hashInstallationToken (token : AddonToken) : Digest := .installationToken token

def hashRetiredInstallationToken (token : AddonToken) : Digest := .retiredInstallationToken token

def hashLifecycleWorkspace (workspaceId : WorkspaceId) : Digest := .lifecycleWorkspace workspaceId

inductive InstallationStatus
  | active | inactive | deleted
  deriving DecidableEq

/-- The token encryption at rest; `openToken` fails on a ciphertext of another key. -/
structure TokenCipher where
  sealToken : AddonToken → String
  openToken : String → Option AddonToken
  open_seal : ∀ token, openToken (sealToken token) = some token

attribute [simp] TokenCipher.open_seal

/-- A deployment without an encryption key stores the token as it is. -/
def TokenCipher.plain : TokenCipher where
  sealToken := id
  openToken := some
  open_seal := fun _ => rfl

structure InstallationRow where
  workspaceId : WorkspaceId
  addonTokenCiphertext : String
  status : InstallationStatus
  generation : Nat
  lifecycleIssuedAt : Option EpochSeconds
  deletionStartedAt : Option Time
  installedAt : Time
  updatedAt : Time
  deriving DecidableEq

structure InstallationAttestation where
  workspaceId : WorkspaceId
  installationGeneration : Nat
  tokenFingerprint : Digest
  binding : Json
  installedAt : Time
  deriving DecidableEq

structure LifecycleAuthorityWatermark where
  workspaceFingerprint : Digest
  lifecycleIssuedAt : EpochSeconds
  authorityState : InstallationStatus
  installationGeneration : Nat
  recordedAt : Time
  expiresAt : Time
  deriving DecidableEq

instance : Keyed InstallationRow WorkspaceId := ⟨InstallationRow.workspaceId⟩
instance : Keyed InstallationAttestation WorkspaceId := ⟨InstallationAttestation.workspaceId⟩
instance : Keyed LifecycleAuthorityWatermark Digest :=
  ⟨LifecycleAuthorityWatermark.workspaceFingerprint⟩

structure InstallationDb where
  installations : Table InstallationRow
  attestations : Table InstallationAttestation
  retiredTokens : List Digest
  watermarks : Table LifecycleAuthorityWatermark
  deriving DecidableEq

def InstallationDb.empty : InstallationDb where
  installations := Table.empty
  attestations := Table.empty
  retiredTokens := []
  watermarks := Table.empty

/-- The database and `lastGenerations`, the memory of the process. -/
structure InstallationStore where
  db : InstallationDb
  lastGenerations : WorkspaceId → Nat

abbrev InstallationTxn (α : Type) := Txn InstallationDb StoreError α

structure EffectiveLifecycleAuthority where
  lifecycleIssuedAt : EpochSeconds
  authorityState : InstallationStatus
  installationGeneration : Nat
  deriving DecidableEq

def lifecycleAuthorityRank : InstallationStatus → Nat
  | .deleted => 2
  | .inactive => 1
  | .active => 0

def maxLifecycleAgeSeconds : Nat := 24 * 60 * 60
def lifecycleClockSkewSeconds : Nat := 60
def lifecycleLineageRetentionSeconds : Nat :=
  maxLifecycleAgeSeconds + 2 * lifecycleClockSkewSeconds + 1

def lifecycleLineageExpiresAt (now : Time) : Time :=
  now + lifecycleLineageRetentionSeconds * 1000

def seconds (now : Time) : EpochSeconds := now / 1000

def pruneWatermarks (watermarks : Table LifecycleAuthorityWatermark) (timestamp : Time) :
    Table LifecycleAuthorityWatermark :=
  watermarks.deleteWhere fun w => w.expiresAt ≤ timestamp

def pruneLifecycleAuthority (timestamp : Time) : InstallationTxn Unit :=
  modify fun db => { db with watermarks := pruneWatermarks db.watermarks timestamp }

def LifecycleAuthorityWatermark.authority (w : LifecycleAuthorityWatermark) :
    EffectiveLifecycleAuthority :=
  ⟨w.lifecycleIssuedAt, w.authorityState, w.installationGeneration⟩

/-- Ties on the issue time go to the higher rank. -/
def EffectiveLifecycleAuthority.merge (fromInstallation persisted : EffectiveLifecycleAuthority) :
    EffectiveLifecycleAuthority :=
  if persisted.lifecycleIssuedAt < fromInstallation.lifecycleIssuedAt then fromInstallation
  else if fromInstallation.lifecycleIssuedAt < persisted.lifecycleIssuedAt then persisted
  else
    { lifecycleIssuedAt := persisted.lifecycleIssuedAt
      authorityState :=
        if lifecycleAuthorityRank persisted.authorityState <
            lifecycleAuthorityRank fromInstallation.authorityState then
          fromInstallation.authorityState
        else persisted.authorityState
      installationGeneration :=
        max persisted.installationGeneration fromInstallation.installationGeneration }

/-- What the row and the watermark of a workspace establish together. A row without an
issue time answers from its installation time, the skew allowed for. -/
def effectiveAuthority (current : Option InstallationRow)
    (persisted : Option EffectiveLifecycleAuthority) : Option EffectiveLifecycleAuthority :=
  match current with
  | none => persisted
  | some row =>
      match row.lifecycleIssuedAt with
      | none =>
          match persisted with
          | some persisted => some persisted
          | none => some ⟨(row.installedAt - 30000) / 1000, row.status, row.generation⟩
      | some issuedAt =>
          let fromInstallation := ⟨issuedAt, row.status, row.generation⟩
          match persisted with
          | none => some fromInstallation
          | some persisted => some (fromInstallation.merge persisted)

/-- The authority recorded for a workspace, expired watermarks left out. -/
def InstallationDb.recordedAuthority (db : InstallationDb) (workspaceId : WorkspaceId)
    (timestamp : Time) : Option EffectiveLifecycleAuthority :=
  effectiveAuthority (db.installations.get? workspaceId)
    (((pruneWatermarks db.watermarks timestamp).get? (hashLifecycleWorkspace workspaceId)).map
      LifecycleAuthorityWatermark.authority)

def lifecycleAuthority (workspaceId : WorkspaceId) (timestamp : Time) :
    InstallationTxn (Option EffectiveLifecycleAuthority) := do
  let db ← get
  pruneLifecycleAuthority timestamp
  return db.recordedAuthority workspaceId timestamp

/-- An older authority never replaces a newer one, nor a lower rank a higher one of the
same issue time; the generation only grows. -/
def recordWatermark (watermarks : Table LifecycleAuthorityWatermark)
    (excluded : LifecycleAuthorityWatermark) : Table LifecycleAuthorityWatermark :=
  match watermarks.get? (key excluded) with
  | none => watermarks.put excluded
  | some existing =>
      if existing.lifecycleIssuedAt < excluded.lifecycleIssuedAt ∨
          excluded.lifecycleIssuedAt = existing.lifecycleIssuedAt ∧
            lifecycleAuthorityRank existing.authorityState ≤
              lifecycleAuthorityRank excluded.authorityState then
        watermarks.put { excluded with
          installationGeneration :=
            max existing.installationGeneration excluded.installationGeneration }
      else watermarks

def lifecycleWatermark (workspaceId : WorkspaceId) (lifecycleIssuedAt : EpochSeconds)
    (authorityState : InstallationStatus) (installationGeneration : Nat) (recordedAt : Time) :
    LifecycleAuthorityWatermark where
  workspaceFingerprint := hashLifecycleWorkspace workspaceId
  lifecycleIssuedAt := lifecycleIssuedAt
  authorityState := authorityState
  installationGeneration := installationGeneration
  recordedAt := recordedAt
  expiresAt := lifecycleLineageExpiresAt recordedAt

def recordLifecycleAuthority (workspaceId : WorkspaceId) (lifecycleIssuedAt : EpochSeconds)
    (authorityState : InstallationStatus) (installationGeneration : Nat) (recordedAt : Time) :
    InstallationTxn Unit :=
  modify fun db => { db with
    watermarks := recordWatermark db.watermarks (lifecycleWatermark workspaceId
      lifecycleIssuedAt authorityState installationGeneration recordedAt) }

/-- A change without an issue time leaves no watermark. -/
def recordIssuedAuthority (workspaceId : WorkspaceId) (lifecycleIssuedAt : Option EpochSeconds)
    (authorityState : InstallationStatus) (installationGeneration : Nat) (recordedAt : Time) :
    InstallationTxn Unit :=
  match lifecycleIssuedAt with
  | some issuedAt =>
      recordLifecycleAuthority workspaceId issuedAt authorityState installationGeneration recordedAt
  | none => return ()

/-- `INSERT OR IGNORE INTO retired_installation_tokens`, unless the token is empty. -/
def retire (retiredTokens : List Digest) (token : AddonToken) : List Digest :=
  if token = "" then retiredTokens
  else retiredTokens.insert (hashRetiredInstallationToken token)

def retireToken (token : AddonToken) : InstallationTxn Unit :=
  modify fun db => { db with retiredTokens := retire db.retiredTokens token }

def putInstallation (row : InstallationRow) : InstallationTxn Unit :=
  modify fun db => { db with installations := db.installations.put row }

def deleteAttestation (workspaceId : WorkspaceId) : InstallationTxn Unit :=
  modify fun db => { db with attestations := db.attestations.delete workspaceId }

/-- `INSTALLED` callbacks; the route turns an empty token away. -/
structure InstallationInput where
  workspaceId : WorkspaceId
  addonToken : AddonToken
  addonToken_ne : addonToken ≠ ""
  status : InstallationStatus := .active
  lifecycleIssuedAt : Option EpochSeconds
  freshInstallAttestation : Option Json := none

inductive InstallationSaveOutcome
  | applied | sameTokenRetry | staleLifecycle | retiredTokenReplay
  deriving DecidableEq

structure InstallationSaveResult where
  outcome : InstallationSaveOutcome
  generation : Option Nat
  deriving DecidableEq

inductive InstallationStatusOutcome
  | applied | staleLifecycle | notInstalled
  deriving DecidableEq

structure InstallationStatusResult where
  outcome : InstallationStatusOutcome
  generation : Option Nat
  deriving DecidableEq

structure LifecycleDeletionResult where
  accepted : Bool
  generation : Option Nat
  deriving DecidableEq

inductive MaintenanceRetirementResult
  | retired (generation : Nat) (tokenFingerprintRetired : Bool)
  | notFound
  | generationMismatch (actualGeneration : Nat)
  | statusMismatch (actualStatus : InstallationStatus)
  | tokenUnreadable
  deriving DecidableEq

def MaintenanceRetirementResult.generation : MaintenanceRetirementResult → Option Nat
  | retired generation _ => some generation
  | _ => none

/-- A replacement install must be strictly newer than the recorded authority. -/
def staleInstall (authority : Option EffectiveLifecycleAuthority)
    (issuedAt : Option EpochSeconds) : Bool :=
  issuedAt.any fun issuedAt => authority.any fun authority =>
    issuedAt ≤ authority.lifecycleIssuedAt

def staleStatus (authority : Option EffectiveLifecycleAuthority) (status : InstallationStatus)
    (issuedAt : Option EpochSeconds) : Bool :=
  issuedAt.any fun issuedAt => authority.any fun authority =>
    issuedAt < authority.lifecycleIssuedAt ||
      (issuedAt == authority.lifecycleIssuedAt &&
        lifecycleAuthorityRank status < lifecycleAuthorityRank authority.authorityState)

def staleDeletion (authority : Option EffectiveLifecycleAuthority) (issuedAt : EpochSeconds) :
    Bool :=
  authority.any fun authority => issuedAt < authority.lifecycleIssuedAt

def sameToken (currentToken : Option AddonToken) (addonToken : AddonToken) : Bool :=
  currentToken.any fun token => hashInstallationToken token == hashInstallationToken addonToken

def authorityGeneration (authority : Option EffectiveLifecycleAuthority) : Nat :=
  (authority.map EffectiveLifecycleAuthority.installationGeneration).getD 0

section Transactions

variable (cipher : TokenCipher) (lastGeneration : Nat) (now : Time)

/-- The token of a row; an unreadable ciphertext throws. -/
def openToken (row : InstallationRow) : InstallationTxn AddonToken :=
  demand (cipher.openToken row.addonTokenCiphertext) (.thrown "token_unreadable")

def currentToken (current : Option InstallationRow) : InstallationTxn (Option AddonToken) :=
  match current with
  | none => return none
  | some row => return some (← openToken cipher row)

/-- The proof of a fresh install, kept for a workspace that had no row. -/
def insertAttestation (input : InstallationInput) (absent : Bool) (installationGeneration : Nat) :
    InstallationTxn Unit :=
  match input.freshInstallAttestation.filter fun _ => absent with
  | none => return ()
  | some binding =>
      modify fun db => { db with attestations := db.attestations.put {
        workspaceId := input.workspaceId
        installationGeneration
        tokenFingerprint := hashInstallationToken input.addonToken
        binding
        installedAt := now } }

def saveInstallationTxn (input : InstallationInput) : InstallationTxn InstallationSaveResult := do
  let db ← get
  let current := db.installations.get? input.workspaceId
  let token ← currentToken cipher current
  if sameToken token input.addonToken then
    return ⟨.sameTokenRetry, current.map InstallationRow.generation⟩
  let authority ← lifecycleAuthority input.workspaceId now
  if staleInstall authority input.lifecycleIssuedAt then
    return ⟨.staleLifecycle, current.map InstallationRow.generation⟩
  if db.retiredTokens.contains (hashRetiredInstallationToken input.addonToken) then
    return ⟨.retiredTokenReplay, current.map InstallationRow.generation⟩
  retireToken (token.getD "")
  let nextGeneration := max (max ((current.map InstallationRow.generation).getD 0) lastGeneration)
    (authorityGeneration authority) + 1
  putInstallation {
    workspaceId := input.workspaceId
    addonTokenCiphertext := cipher.sealToken input.addonToken
    status := input.status
    generation := nextGeneration
    lifecycleIssuedAt := input.lifecycleIssuedAt
    deletionStartedAt := none
    installedAt := (current.map InstallationRow.installedAt).getD now
    updatedAt := now }
  deleteAttestation input.workspaceId
  insertAttestation now input current.isNone nextGeneration
  recordIssuedAuthority input.workspaceId input.lifecycleIssuedAt input.status nextGeneration now
  return ⟨.applied, some nextGeneration⟩

/-- A status callback for a missing or deleted installation: only INACTIVE leaves a mark. -/
def recordAbsentStatus (workspaceId : WorkspaceId) (status : InstallationStatus)
    (lifecycleIssuedAt : Option EpochSeconds) (current : Option InstallationRow)
    (authority : Option EffectiveLifecycleAuthority) :
    InstallationTxn InstallationStatusResult := do
  match status, lifecycleIssuedAt with
  | .inactive, some issuedAt =>
      recordLifecycleAuthority workspaceId issuedAt (if current.isSome then .deleted else .inactive)
        ((current.map InstallationRow.generation).getD (authorityGeneration authority)) now
      return ⟨.applied, current.map InstallationRow.generation⟩
  | _, _ => return ⟨.notInstalled, current.map InstallationRow.generation⟩

def setInstallationStatusTxn (workspaceId : WorkspaceId) (status : InstallationStatus)
    (lifecycleIssuedAt : Option EpochSeconds) : InstallationTxn InstallationStatusResult := do
  let db ← get
  let current := db.installations.get? workspaceId
  let authority ← lifecycleAuthority workspaceId now
  if staleStatus authority status lifecycleIssuedAt then
    return ⟨.staleLifecycle, current.map InstallationRow.generation⟩
  match current.filter fun row => row.status != .deleted with
  | none => recordAbsentStatus now workspaceId status lifecycleIssuedAt current authority
  | some row =>
      let nextGeneration :=
        if status = .active ∧ row.status ≠ .active then
          max (max row.generation lastGeneration) (authorityGeneration authority) + 1
        else row.generation
      putInstallation { row with
        status
        generation := nextGeneration
        lifecycleIssuedAt := lifecycleIssuedAt <|> row.lifecycleIssuedAt
        deletionStartedAt := if status = .active then none else row.deletionStartedAt
        updatedAt := now }
      deleteAttestation workspaceId
      recordIssuedAuthority workspaceId lifecycleIssuedAt status nextGeneration now
      return ⟨.applied, some nextGeneration⟩

def tombstoneLifecycleTxn (workspaceId : WorkspaceId) (lifecycleIssuedAt : EpochSeconds)
    (recordAbsent : Bool) : InstallationTxn LifecycleDeletionResult := do
  let db ← get
  let current := db.installations.get? workspaceId
  let authority ← lifecycleAuthority workspaceId now
  if staleDeletion authority lifecycleIssuedAt then
    return ⟨false, current.map InstallationRow.generation⟩
  match current with
  | none =>
      if recordAbsent then
        recordLifecycleAuthority workspaceId lifecycleIssuedAt .deleted
          (authorityGeneration authority) now
      return ⟨recordAbsent, authority.map EffectiveLifecycleAuthority.installationGeneration⟩
  | some row =>
      if row.status = .deleted then
        putInstallation { row with
          lifecycleIssuedAt := some (max (row.lifecycleIssuedAt.getD 0) lifecycleIssuedAt)
          updatedAt := now }
        recordLifecycleAuthority workspaceId lifecycleIssuedAt .deleted row.generation now
        return ⟨true, some row.generation⟩
      let token ← openToken cipher row
      retireToken token
      let generation :=
        max (max row.generation lastGeneration) (authorityGeneration authority) + 1
      putInstallation { row with
        status := .deleted
        addonTokenCiphertext := cipher.sealToken ""
        generation
        lifecycleIssuedAt := some lifecycleIssuedAt
        deletionStartedAt := some now
        updatedAt := now }
      deleteAttestation workspaceId
      recordLifecycleAuthority workspaceId lifecycleIssuedAt .deleted generation now
      return ⟨true, some generation⟩

structure MaintenanceRetirement where
  workspaceId : WorkspaceId
  expectedGeneration : Nat
  expectedStatus : InstallationStatus
  expectedStatus_ne : expectedStatus ≠ .deleted

def retireInstallationTxn (input : MaintenanceRetirement) :
    InstallationTxn MaintenanceRetirementResult := do
  let db ← get
  match db.installations.get? input.workspaceId with
  | none => return .notFound
  | some row =>
      if row.generation ≠ input.expectedGeneration then
        return .generationMismatch row.generation
      if row.status ≠ input.expectedStatus then return .statusMismatch row.status
      match cipher.openToken row.addonTokenCiphertext with
      | none => return .tokenUnreadable
      | some token =>
          retireToken token
          let generation := max row.generation lastGeneration + 1
          putInstallation { row with
            status := .inactive
            addonTokenCiphertext := cipher.sealToken ""
            generation
            updatedAt := now }
          deleteAttestation input.workspaceId
          return .retired generation (token ≠ "")

/-- The installation's part of the erase; `none` when the generation is not the one to erase. -/
def eraseWorkspaceTxn (workspaceId : WorkspaceId) (expectedDeletionGeneration : Option Nat) :
    InstallationTxn (Option (Option Nat)) := do
  let db ← get
  let installation := db.installations.get? workspaceId
  if expectedDeletionGeneration.any fun generation => !installation.any fun row =>
      row.status == .deleted && row.generation == generation then
    return none
  deleteAttestation workspaceId
  modify fun db => { db with installations := db.installations.delete workspaceId }
  return some (installation.map InstallationRow.generation)

end Transactions

namespace InstallationStore

def rememberGeneration (s : InstallationStore) (workspaceId : WorkspaceId) (generation : Nat) :
    InstallationStore :=
  { s with lastGenerations :=
      Function.update s.lastGenerations workspaceId (max generation (s.lastGenerations workspaceId)) }

/-- Run a transaction; a generation it reports is remembered once it has committed. -/
def run {α : Type} (s : InstallationStore) (workspaceId : WorkspaceId)
    (txn : Nat → InstallationTxn α) (generation : α → Option Nat) :
    Except StoreError α × InstallationStore :=
  let (result, db) := (txn (s.lastGenerations workspaceId)).commit s.db
  match result with
  | .error e => (.error e, s)
  | .ok a =>
      match generation a with
      | some n => (.ok a, ({ s with db } : InstallationStore).rememberGeneration workspaceId n)
      | none => (.ok a, { s with db })

variable (cipher : TokenCipher) (now : Time) (s : InstallationStore)

def saveInstallation (input : InstallationInput) :
    Except StoreError InstallationSaveResult × InstallationStore :=
  s.run input.workspaceId (fun last => saveInstallationTxn cipher last now input)
    InstallationSaveResult.generation

def setInstallationStatus (workspaceId : WorkspaceId) (status : InstallationStatus)
    (lifecycleIssuedAt : Option EpochSeconds) :
    Except StoreError InstallationStatusResult × InstallationStore :=
  s.run workspaceId
    (fun last => setInstallationStatusTxn last now workspaceId status lifecycleIssuedAt)
    InstallationStatusResult.generation

def tombstoneLifecycle (workspaceId : WorkspaceId) (lifecycleIssuedAt : EpochSeconds)
    (recordAbsent : Bool) : Except StoreError LifecycleDeletionResult × InstallationStore :=
  s.run workspaceId
    (fun last => tombstoneLifecycleTxn cipher last now workspaceId lifecycleIssuedAt recordAbsent)
    LifecycleDeletionResult.generation

def tombstoneInstallationForLifecycle (workspaceId : WorkspaceId)
    (lifecycleIssuedAt : EpochSeconds) :
    Except StoreError LifecycleDeletionResult × InstallationStore :=
  s.tombstoneLifecycle cipher now workspaceId lifecycleIssuedAt true

def tombstoneInstallation (workspaceId : WorkspaceId) :
    Except StoreError (Option Nat) × InstallationStore :=
  match s.db.installations.get? workspaceId with
  | none => (.ok none, s)
  | some row =>
      let (result, s') := s.tombstoneLifecycle cipher now workspaceId
        (row.lifecycleIssuedAt.getD (seconds now)) false
      (result.map fun r => if r.accepted then r.generation else none, s')

def retireInstallationForMaintenance (input : MaintenanceRetirement) :
    Except StoreError MaintenanceRetirementResult × InstallationStore :=
  s.run input.workspaceId (fun last => retireInstallationTxn cipher last now input)
    MaintenanceRetirementResult.generation

def eraseWorkspaceRows (workspaceId : WorkspaceId) (expectedDeletionGeneration : Option Nat) :
    Except StoreError (Option (Option Nat)) × InstallationStore :=
  s.run workspaceId (fun _ => eraseWorkspaceTxn workspaceId expectedDeletionGeneration) Option.join

def eraseWorkspace (workspaceId : WorkspaceId) : Except StoreError Unit × InstallationStore :=
  match (s.db.installations.get? workspaceId).filter fun row => row.status != .deleted with
  | none =>
      let (result, s') := s.eraseWorkspaceRows workspaceId none
      (result.map fun _ => (), s')
  | some row =>
      let (tombstone, s') := s.tombstoneLifecycle cipher now workspaceId
        (max (row.lifecycleIssuedAt.getD 0) (seconds now)) false
      match tombstone with
      | .error e => (.error e, s')
      | .ok _ =>
          let (result, s'') := s'.eraseWorkspaceRows workspaceId none
          (result.map fun _ => (), s'')

def eraseWorkspaceForDeletion (workspaceId : WorkspaceId) (generation : Nat) :
    Except StoreError Bool × InstallationStore :=
  let (result, s') := s.eraseWorkspaceRows workspaceId (some generation)
  (result.map Option.isSome, s')

/-- The watermark a row of an earlier run is given when the store opens. -/
def seedLifecycleAuthority (row : InstallationRow) : InstallationTxn Unit :=
  let issuedAt :=
    if row.status = .deleted then some (max (row.lifecycleIssuedAt.getD 0) (seconds now))
    else row.lifecycleIssuedAt
  recordIssuedAuthority row.workspaceId issuedAt row.status row.generation now

/-- Opening the store: the process memory starts empty. -/
def openStore : InstallationStore where
  db := ((do
    pruneLifecycleAuthority now
    let db ← get
    db.installations.rows.forM (seedLifecycleAuthority now) : InstallationTxn Unit).commit s.db).2
  lastGenerations := fun _ => 0

end InstallationStore

end ClockifyAssistant
