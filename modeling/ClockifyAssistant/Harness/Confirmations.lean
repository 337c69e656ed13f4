import ClockifyAssistant.Lib.Checked
import ClockifyAssistant.Store.Confirmations

/-!
The checks a preview passes before it is confirmed or its nonce is re-issued.
They read the record they are given; the nonce is compared by its hash.
-/
namespace ClockifyAssistant

abbrev Nonce := Nat

structure ConfirmationHashes where
  hashNonce : Nonce → ConfirmationId → Hash → Hash
  confirmationOperationBindingHash : PendingConfirmation → Hash
  actionFingerprint : Option String → Hash
  catalogHash : Hash

/-- A check that failed, with its code and the message shown. -/
structure Rejection where
  code : String
  message : String
  deriving DecidableEq

def PendingConfirmation.isV2PreviewAuthority (record : PendingConfirmation) : Bool :=
  record.discriminator.origin == .assistant && record.discriminator.registryId == .v2Api &&
    record.discriminator.authorityModel == .previewConfirmationV2 &&
    (record.discriminator.executorKind == .preparedSafeWrite ||
      record.discriminator.executorKind == .riskyCommit) &&
    record.discriminator.runId.isSome && record.capabilityId.isNone

def PendingConfirmation.isBatchOwned (record : PendingConfirmation) : Bool :=
  record.batchId.isSome

def PendingConfirmation.isV2AssistantPreview (record : PendingConfirmation) : Bool :=
  record.isV2PreviewAuthority && !record.isBatchOwned

def PendingConfirmation.isV2AssistantBatch (record : PendingConfirmation) : Bool :=
  record.isV2PreviewAuthority && record.isBatchOwned

variable (hashes : ConfirmationHashes)

/-- Tenant binding, status, expiry, integrity and compatibility, in this order. -/
def checkConfirmationGate (record : PendingConfirmation) (claims : SessionScope) (now : Time)
    (expectedActionFingerprint expectedCatalogHash : Option Hash) : Except Rejection Unit := do
  if record.scope ≠ claims then
    throw ⟨"forbidden", "This preview belongs to a different session."⟩
  if record.status = .expired then
    throw ⟨"expired", "This preview has expired. Ask me to run a fresh preview."⟩
  if record.status ≠ .pending then
    throw ⟨"not_pending", "This preview is no longer pending."⟩
  if record.expiresAt ≤ now then
    throw ⟨"expired", "This preview has expired. Ask me to run a fresh preview."⟩
  if hashes.confirmationOperationBindingHash record ≠ record.operationHash then
    throw ⟨"operation_mismatch", "Preview integrity check failed."⟩
  if expectedActionFingerprint.any (· ≠ record.actionFingerprint) then
    throw ⟨"incompatible_confirmation",
      "This preview was created by incompatible action code. Run a fresh preview."⟩
  if expectedCatalogHash.any (· ≠ record.catalogHash) then
    throw ⟨"incompatible_confirmation",
      "The action catalog changed after this preview. Run a fresh preview."⟩

def ConfirmationHashes.nonceHashOf (record : PendingConfirmation) (nonce : Nonce) : Hash :=
  hashes.hashNonce nonce record.id record.operationHash

/-- The gate, then the nonce against the hash stored in the record. -/
def confirmPending (record : PendingConfirmation) (claims : SessionScope) (nonce : Nonce)
    (now : Time) : Except Rejection Unit := do
  checkConfirmationGate hashes record claims now
    (some (hashes.actionFingerprint (record.operation.map ConfirmableOperation.actionName)))
    (some hashes.catalogHash)
  if some (hashes.nonceHashOf record nonce) ≠ record.nonceHash then
    throw ⟨"invalid_confirmation", "Confirmation does not match this preview."⟩

/-- The new hash to store; the expiry stays as it is. -/
def rotatePendingNonce (record : PendingConfirmation) (claims : SessionScope) (nonce : Nonce)
    (now : Time) : Except Rejection Hash := do
  checkConfirmationGate hashes record claims now none none
  return hashes.nonceHashOf record nonce

variable {hashes}

theorem checkConfirmationGate_ok {record : PendingConfirmation} {claims : SessionScope}
    {now : Time} {fingerprint catalog : Option Hash}
    (h : checkConfirmationGate hashes record claims now fingerprint catalog = .ok ()) :
    record.scope = claims ∧ record.status = .pending ∧ now < record.expiresAt := by
  unfold checkConfirmationGate at h
  by_cases hscope : record.scope = claims
  · by_cases hexpired : record.status = .expired
    · simp [hscope, hexpired] at h
      cases h
    · by_cases hpending : record.status = .pending
      · by_cases hdue : record.expiresAt ≤ now
        · simp [hscope, hpending, hdue] at h
          cases h
        · exact ⟨hscope, hpending, not_le.mp hdue⟩
      · simp [hscope, hexpired, hpending] at h
        cases h
  · simp [hscope] at h
    cases h

theorem confirmPending_ok {record : PendingConfirmation} {claims : SessionScope} {nonce : Nonce}
    {now : Time} (h : confirmPending hashes record claims nonce now = .ok ()) :
    record.scope = claims ∧ record.status = .pending ∧ now < record.expiresAt ∧
      record.nonceHash = some (hashes.nonceHashOf record nonce) := by
  obtain ⟨_, hgate, hnonce⟩ := Lib.Checked.bind_eq_ok.mp h
  obtain ⟨hscope, hpending, hdue⟩ := checkConfirmationGate_ok hgate
  refine ⟨hscope, hpending, hdue, ?_⟩
  by_contra hne
  rw [if_pos fun heq => hne heq.symm] at hnonce
  cases hnonce

end ClockifyAssistant
